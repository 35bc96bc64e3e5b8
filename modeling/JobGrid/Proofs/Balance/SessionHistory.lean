import JobGrid.Balance.SessionCache
import Mathlib.Data.List.DropRight
import Mathlib.Data.List.Induction

/-!
# Histories of session caches

What a session cache answers after any calls about any sessions depends only on what was said
about the session since it was forgotten last: the first value that was stored is the one to
use, until the session is mapped. A cache that keeps a flag and a value that may be missing
gives the same answers, since none of its entries lacks both.
-/

namespace JobGrid

/-- What a session cache is told about a session. -/
inductive SessionNote (α : Type) where
  | store (value : α)
  | markMapped
  | forget

/-- A call that tells a session cache something about a session. -/
structure SessionCall (α : Type) where
  session : SessionId
  note : SessionNote α

variable {α : Type}

namespace SessionNote

def isMark : SessionNote α → Bool
  | markMapped => true
  | store _ | forget => false

def isForget : SessionNote α → Bool
  | forget => true
  | store _ | markMapped => false

theorem any_isMark {notes : List (SessionNote α)} :
    notes.any isMark = true ↔ .markMapped ∈ notes := by
  rw [List.any_eq_true]
  constructor
  · rintro ⟨note, inside, mark⟩
    cases note with
    | markMapped => exact inside
    | store value => cases mark
    | forget => cases mark
  · intro inside
    exact ⟨_, inside, rfl⟩

end SessionNote

/-- What was said about a session since it was forgotten last. -/
def notesOf (session : SessionId) (history : List (SessionCall α)) : List (SessionNote α) :=
  (history.filterMap fun call =>
    if call.session = session then some call.note else none).rtakeWhile fun note => !note.isForget

/-- Of the values in some notes this one was stored first, and the later notes followed it. -/
def StoredFirst (notes : List (SessionNote α)) (value : α) (later : List (SessionNote α)) : Prop :=
  ∃ before, notes = before ++ .store value :: later ∧ ∀ other, .store other ∉ before

/-- What some notes amount to. -/
def standing : List (SessionNote α) → CacheLookup α
  | [] => .miss
  | .store value :: later => if later.any SessionNote.isMark then .mapped else .cached value
  | .markMapped :: later | .forget :: later => standing later

/-- The value to use, if this one is at hand. -/
def CacheLookup.getD : CacheLookup α → α → α
  | .cached first, _ => first
  | .miss, value | .mapped, value => value

/-- What is found after one more note, by what was found before. -/
def CacheLookup.after : CacheLookup α → SessionNote α → CacheLookup α
  | _, .forget => .miss
  | .miss, .store value => .cached value
  | .miss, .markMapped => .miss
  | .cached first, .store _ => .cached first
  | .cached _, .markMapped => .mapped
  | .mapped, .store _ | .mapped, .markMapped => .mapped

/-! ## What notes amount to -/

section Standing

variable {notes later : List (SessionNote α)} {note : SessionNote α} {value : α}

theorem notesOf_concat (session : SessionId) (history : List (SessionCall α))
    (call : SessionCall α) :
    notesOf session (history ++ [call]) =
      if call.session = session then
        if call.note.isForget then [] else notesOf session history ++ [call.note]
      else notesOf session history := by
  rw [notesOf, List.filterMap_append]
  by_cases own : call.session = session
  · cases ends : call.note.isForget with
    | true => simp [own, ends]
    | false => simp [own, ends, notesOf]
  · simp [own, notesOf]

/-- Either nothing was stored, or something was stored first. -/
theorem storedFirst_or (notes : List (SessionNote α)) :
    (∀ value, .store value ∉ notes) ∨ ∃ value later, StoredFirst notes value later := by
  induction notes with
  | nil => exact .inl fun _ => List.not_mem_nil
  | cons note rest ih =>
      have skip (other : ∀ value, note ≠ .store value) :
          (∀ value, .store value ∉ note :: rest) ∨
            ∃ value later, StoredFirst (note :: rest) value later := by
        rcases ih with none | ⟨value, later, before, rfl, none⟩
        · exact .inl fun value => List.not_mem_cons_of_ne_of_not_mem (other value).symm (none value)
        · refine .inr ⟨value, later, note :: before, rfl, fun first => ?_⟩
          exact List.not_mem_cons_of_ne_of_not_mem (other first).symm (none first)
      cases note with
      | store value => exact .inr ⟨value, rest, [], rfl, fun _ => List.not_mem_nil⟩
      | markMapped => exact skip nofun
      | forget => exact skip nofun

theorem standing_append {before : List (SessionNote α)} (none : ∀ value, .store value ∉ before) :
    standing (before ++ notes) = standing notes := by
  induction before with
  | nil => rfl
  | cons note rest ih =>
      have rest := ih fun value inside => none value (List.mem_cons_of_mem note inside)
      cases note with
      | store value => exact absurd List.mem_cons_self (none value)
      | markMapped => exact rest
      | forget => exact rest

theorem standing_of_none (none : ∀ value, .store value ∉ notes) : standing notes = .miss := by
  rw [← List.append_nil notes, standing_append none, standing]

theorem standing_of_storedFirst (first : StoredFirst notes value later) :
    standing notes = if later.any SessionNote.isMark then .mapped else .cached value := by
  obtain ⟨before, rfl, none⟩ := first
  rw [standing_append none, standing]

theorem standing_of_unmarked (first : StoredFirst notes value later)
    (unmarked : .markMapped ∉ later) : standing notes = .cached value := by
  rw [standing_of_storedFirst first, if_neg (mt SessionNote.any_isMark.1 unmarked)]

theorem standing_of_marked (first : StoredFirst notes value later)
    (marked : .markMapped ∈ later) : standing notes = .mapped := by
  rw [standing_of_storedFirst first, if_pos (SessionNote.any_isMark.2 marked)]

/-- Something is cached exactly if a value was stored and not dropped since. -/
theorem standing_eq_cached_iff : standing notes = .cached value ↔
    ∃ later, StoredFirst notes value later ∧ .markMapped ∉ later := by
  constructor
  · intro cached
    rcases storedFirst_or notes with none | ⟨first, later, stored⟩
    · rw [standing_of_none none] at cached
      cases cached
    · by_cases marked : .markMapped ∈ later
      · rw [standing_of_marked stored marked] at cached
        cases cached
      · rw [standing_of_unmarked stored marked] at cached
        cases cached
        exact ⟨later, stored, marked⟩
  · rintro ⟨later, stored, unmarked⟩
    exact standing_of_unmarked stored unmarked

theorem standing_ne_miss_iff : standing notes ≠ .miss ↔ ∃ value, .store value ∈ notes := by
  constructor
  · intro known
    by_contra none
    exact known (standing_of_none fun value inside => none ⟨value, inside⟩)
  · rintro ⟨value, inside⟩
    rcases storedFirst_or notes with none | ⟨first, later, stored⟩
    · exact absurd inside (none value)
    · rw [standing_of_storedFirst stored]
      split <;> exact nofun

/-- A note that does not forget the session changes what is found. -/
theorem standing_concat (keeps : note.isForget = false) :
    standing (notes ++ [note]) = (standing notes).after note := by
  rcases storedFirst_or notes with none | ⟨value, later, before, rfl, none⟩
  · rw [standing_append none, standing_of_none none]
    cases note with
    | store value => rfl
    | markMapped => rfl
    | forget => cases keeps
  · rw [List.append_assoc, standing_append none, standing_append none, List.cons_append, standing,
      standing, List.any_append]
    cases note with
    | store other => cases later.any SessionNote.isMark <;> rfl
    | markMapped => cases later.any SessionNote.isMark <;> rfl
    | forget => cases keeps

end Standing

/-! ## Caches -/

namespace SessionCache

variable (cache : SessionCache α) (session : SessionId)

/-- Tells a cache something about a session. -/
def perform (cache : SessionCache α) (call : SessionCall α) : SessionCache α :=
  match call.note with
  | .store value => (cache.store call.session value).2
  | .markMapped => (cache.markMapped call.session).2
  | .forget => (cache.forget call.session).2

/-- Tells a cache some things about sessions, one after another. -/
def run (cache : SessionCache α) (history : List (SessionCall α)) : SessionCache α :=
  history.foldl perform cache

theorem run_concat (history : List (SessionCall α)) (call : SessionCall α) :
    cache.run (history ++ [call]) = (cache.run history).perform call := by
  simp [run]

theorem fst_store (value : α) :
    (cache.store session value).1 = (cache.lookup session).getD value := by
  simp only [store, lookup]
  split <;> rfl

theorem fst_markMapped : (cache.markMapped session).1 = true ↔
    ∃ first, cache.lookup session = .cached first := by
  simp only [markMapped, lookup]
  cases cache.get? session with
  | none => simp
  | some entry => cases entry <;> simp

theorem markMapped_of_miss (unknown : cache.lookup session = .miss) :
    cache.markMapped session = (false, cache) := by
  simp only [lookup] at unknown
  split at unknown
  · rename_i found
    simp only [markMapped, found]
  · cases unknown
  · cases unknown

theorem fst_forget : (cache.forget session).1 = true ↔ cache.lookup session ≠ .miss := by
  simp only [forget, Table.contains, lookup]
  cases cache.get? session with
  | none => simp
  | some entry => cases entry <;> simp

/-- A call changes what is found about its session only. -/
theorem lookup_perform (call : SessionCall α) : (cache.perform call).lookup session =
    if call.session = session then (cache.lookup session).after call.note
    else cache.lookup session := by
  obtain ⟨other, note⟩ := call
  by_cases own : other = session
  · subst own
    rw [if_pos rfl]
    cases note with
    | store value =>
        simp only [perform, store, lookup]
        cases found : cache.get? other with
        | none => simp [CacheLookup.after]
        | some entry => cases entry <;> simp [found, CacheLookup.after]
    | markMapped =>
        simp only [perform, markMapped, lookup]
        cases found : cache.get? other with
        | none => simp [found, CacheLookup.after]
        | some entry => cases entry <;> simp [found, CacheLookup.after]
    | forget => simp [perform, forget, lookup, CacheLookup.after]
  · rw [if_neg own]
    have same : (cache.perform ⟨other, note⟩).get? session = cache.get? session := by
      cases note with
      | store value =>
          simp only [perform, store]
          split
          · exact Table.get?_insert_of_ne _ _ own
          · rfl
          · rfl
      | markMapped =>
          simp only [perform, markMapped]
          split
          · exact Table.get?_insert_of_ne _ _ own
          · rfl
      | forget => exact Table.get?_erase_of_ne _ own
    rw [lookup, same, lookup]

/-- What is found about a session depends on what was said about it since it was forgotten. -/
theorem lookup_run (history : List (SessionCall α)) :
    (run ∅ history).lookup session = standing (notesOf session history) := by
  induction history using List.reverseRecOn with
  | nil => rfl
  | append_singleton earlier call ih =>
      rw [run_concat, lookup_perform, ih, notesOf_concat]
      split
      · cases ends : call.note.isForget with
        | true =>
            rw [if_pos rfl]
            cases note : call.note with
            | forget => cases standing (notesOf session earlier) <;> rfl
            | store value => simp [note, SessionNote.isForget] at ends
            | markMapped => simp [note, SessionNote.isForget] at ends
        | false => rw [if_neg (by decide), standing_concat ends]
      · rfl

end SessionCache

/-! ## Caches with flags -/

/-- What is remembered about a session, as a flag and a value that may be missing. -/
structure FlaggedEntry (α : Type) where
  isMapped : Bool := false
  value : Option α := none

/-- The entry that remembers the same. -/
def SessionEntry.flagged : SessionEntry α → FlaggedEntry α
  | cached value => { value := some value }
  | mapped => { isMapped := true }

/-- What is remembered about all sessions, with flags. -/
abbrev FlaggedCache (α : Type) := Table SessionId (FlaggedEntry α)

namespace FlaggedCache

def lookup (cache : FlaggedCache α) (session : SessionId) : CacheLookup α :=
  match cache.get? session with
  | none => .miss
  | some entry =>
      if entry.isMapped then .mapped
      else
        match entry.value with
        | some value => .cached value
        | none => .miss

/-- Enters a session that is not known, and its value where it is missing. -/
def store (cache : FlaggedCache α) (session : SessionId) (value : α) : α × FlaggedCache α :=
  let entry := cache.getD session {}
  if entry.isMapped then (value, cache.insert session entry)
  else
    let first := entry.value.getD value
    (first, cache.insert session { entry with value := some first })

def markMapped (cache : FlaggedCache α) (session : SessionId) : Bool × FlaggedCache α :=
  match cache.get? session with
  | some entry =>
      if entry.isMapped then (false, cache)
      else (true, cache.insert session { isMapped := true })
  | none => (false, cache)

def forget (cache : FlaggedCache α) (session : SessionId) : Bool × FlaggedCache α :=
  (cache.contains session, cache.erase session)

/-- Tells a cache some things about sessions, one after another. -/
def run (cache : FlaggedCache α) (history : List (SessionCall α)) : FlaggedCache α :=
  history.foldl (fun cache call =>
    match call.note with
    | .store value => (cache.store call.session value).2
    | .markMapped => (cache.markMapped call.session).2
    | .forget => (cache.forget call.session).2) cache

/-- Both caches remember the same about each session. In particular no flagged entry lacks both
the flag and the value. -/
def Mirrors (flagged : FlaggedCache α) (cache : SessionCache α) : Prop :=
  ∀ session, flagged.get? session = (cache.get? session).map SessionEntry.flagged

namespace Mirrors

variable {flagged : FlaggedCache α} {cache : SessionCache α}

theorem insert (mirrors : flagged.Mirrors cache) (session : SessionId) (entry : SessionEntry α) :
    Mirrors (flagged.insert session entry.flagged) (cache.insert session entry) := by
  intro other
  rw [Table.get?_insert, Table.get?_insert]
  split
  · rfl
  · exact mirrors other

/-- An entry that is written once more changes nothing. -/
theorem insert_same (mirrors : flagged.Mirrors cache) {session : SessionId}
    {entry : SessionEntry α} (known : cache.get? session = some entry) :
    Mirrors (flagged.insert session entry.flagged) cache := by
  intro other
  rw [Table.get?_insert]
  split
  · rename_i same
    rw [← same, known]
    rfl
  · exact mirrors other

variable (mirrors : flagged.Mirrors cache) (session : SessionId)

include mirrors

theorem lookup : flagged.lookup session = cache.lookup session := by
  rw [FlaggedCache.lookup, mirrors session, SessionCache.lookup]
  cases cache.get? session with
  | none => rfl
  | some entry => cases entry <;> rfl

theorem store (value : α) : (flagged.store session value).1 = (cache.store session value).1 ∧
    Mirrors (flagged.store session value).2 (cache.store session value).2 := by
  simp only [FlaggedCache.store, Table.getD, mirrors session, SessionCache.store]
  cases known : cache.get? session with
  | none => exact ⟨rfl, mirrors.insert session (.cached value)⟩
  | some entry =>
      cases entry with
      | cached first => exact ⟨rfl, mirrors.insert_same known⟩
      | mapped => exact ⟨rfl, mirrors.insert_same known⟩

theorem markMapped : (flagged.markMapped session).1 = (cache.markMapped session).1 ∧
    Mirrors (flagged.markMapped session).2 (cache.markMapped session).2 := by
  simp only [FlaggedCache.markMapped, mirrors session, SessionCache.markMapped]
  cases cache.get? session with
  | none => exact ⟨rfl, mirrors⟩
  | some entry =>
      cases entry with
      | cached first => exact ⟨rfl, mirrors.insert session .mapped⟩
      | mapped => exact ⟨rfl, mirrors⟩

theorem forget : (flagged.forget session).1 = (cache.forget session).1 ∧
    Mirrors (flagged.forget session).2 (cache.forget session).2 := by
  refine ⟨?_, fun other => ?_⟩
  · simp only [FlaggedCache.forget, SessionCache.forget, Table.contains, mirrors session,
      Option.isSome_map]
  · simp only [FlaggedCache.forget, SessionCache.forget, Table.get?_erase]
    split
    · rfl
    · exact mirrors other

theorem run (history : List (SessionCall α)) :
    Mirrors (flagged.run history) (cache.run history) := by
  induction history generalizing flagged cache with
  | nil => exact mirrors
  | cons call later ih =>
      obtain ⟨session, note⟩ := call
      cases note with
      | store value => exact ih (mirrors.store session value).2
      | markMapped => exact ih (mirrors.markMapped session).2
      | forget => exact ih (mirrors.forget session).2

end Mirrors

end FlaggedCache

namespace SessionCache

/-- What a cache answers after any calls depends only on what was said about the session since it
was forgotten last. If nothing was stored, then nothing is found, a value that is stored now is the
one to use, and marking the session changes nothing. Otherwise the first value that was stored is
found and used; after a later mark the session is found to be mapped, and a value that is stored
is handed back. To mark the session tells whether it is the first mark after that value, and to
forget it tells whether something was stored. A cache with flags gives the same answers, and none
of its entries lacks both the flag and the value. -/
theorem answers_of_history (history : List (SessionCall α)) (session : SessionId) (value : α) :
    let cache := run ∅ history
    let notes := notesOf session history
    let flagged := FlaggedCache.run ∅ history
    ((∀ first, .store first ∉ notes) → cache.lookup session = .miss ∧
        (cache.store session value).1 = value ∧ cache.markMapped session = (false, cache)) ∧
      (∀ first later, StoredFirst notes first later →
        (.markMapped ∉ later →
          cache.lookup session = .cached first ∧ (cache.store session value).1 = first) ∧
        (.markMapped ∈ later →
          cache.lookup session = .mapped ∧ (cache.store session value).1 = value)) ∧
      ((cache.markMapped session).1 = true ↔
        ∃ first later, StoredFirst notes first later ∧ .markMapped ∉ later) ∧
      ((cache.forget session).1 = true ↔ ∃ first, .store first ∈ notes) ∧
      (∀ entry, flagged.get? session = some entry → entry.isMapped = entry.value.isNone) ∧
      flagged.lookup session = cache.lookup session ∧
      (flagged.store session value).1 = (cache.store session value).1 ∧
      (flagged.markMapped session).1 = (cache.markMapped session).1 ∧
      (flagged.forget session).1 = (cache.forget session).1 := by
  intro cache notes flagged
  have found : cache.lookup session = standing notes := lookup_run session history
  have fresh : (∅ : FlaggedCache α).Mirrors (∅ : SessionCache α) := fun _ => rfl
  have mirrors : flagged.Mirrors cache := fresh.run history
  refine ⟨?_, ?_, ?_, ?_, ?_, mirrors.lookup session, (mirrors.store session value).1,
    (mirrors.markMapped session).1, (mirrors.forget session).1⟩
  · intro none
    have miss : cache.lookup session = .miss := found.trans (standing_of_none none)
    exact ⟨miss, by rw [fst_store, miss, CacheLookup.getD], markMapped_of_miss cache session miss⟩
  · intro first later stored
    refine ⟨fun unmarked => ?_, fun marked => ?_⟩
    · have cached : cache.lookup session = .cached first :=
        found.trans (standing_of_unmarked stored unmarked)
      exact ⟨cached, by rw [fst_store, cached, CacheLookup.getD]⟩
    · have mapped : cache.lookup session = .mapped :=
        found.trans (standing_of_marked stored marked)
      exact ⟨mapped, by rw [fst_store, mapped, CacheLookup.getD]⟩
  · rw [fst_markMapped, found]
    simp only [standing_eq_cached_iff]
  · rw [fst_forget, found, standing_ne_miss_iff]
  · intro entry kept
    rw [mirrors session] at kept
    obtain ⟨one, -, rfl⟩ := Option.map_eq_some_iff.1 kept
    cases one <;> rfl

end SessionCache

end JobGrid
