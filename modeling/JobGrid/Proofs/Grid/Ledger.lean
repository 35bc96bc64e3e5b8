import Mathlib.Algebra.Order.BigOperators.Group.List
import Mathlib.Algebra.Order.Group.Nat
import Mathlib.Data.List.Nodup
import JobGrid.Error

/-!
# Ledgers of jobs

A ledger says where the jobs of a grid are, but not how nodes keep them: how often each node holds
a job, how many answers about it are on their way to its origin, where the origin believes it to
be, and whether it was dropped. A ledger is balanced if each pending job of a member that was not
dropped is where it is believed to be, is answered, or was on a node whose departure its origin has
yet to learn of; and if, as long as nobody departed, no job is there more often than it was
submitted. Each kind of change that a grid goes through keeps a ledger balanced.
-/

namespace JobGrid

/-- Where the jobs of a grid are. -/
structure Ledger where
  /-- All nodes that joined so far. -/
  nodes : List NodeId
  /-- The nodes that are members. -/
  live : NodeId → Prop
  /-- How often a job is on a node, or on its way there. -/
  held : NodeId → JobId → Nat
  /-- How many answers about a job are on their way to a node. -/
  answers : NodeId → JobId → Nat
  /-- Whether a job of a node is pending and believed to be on another one. -/
  pends : NodeId → JobId → NodeId → Prop
  /-- Whether a node has yet to learn that another one departed. -/
  awaits : NodeId → NodeId → Prop
  /-- How often a job was submitted. -/
  submitted : JobId → Nat
  /-- Whether nobody departed so far. -/
  whole : Prop
  /-- Whether a job was dropped by a node that broke a rule. -/
  dropped : JobId → Prop

namespace Ledger

/-- How often a job is on any node, or on its way there. -/
def total (ledger : Ledger) (job : JobId) : Nat :=
  (ledger.nodes.map fun node => ledger.held node job).sum

/-- A pending job that is believed to be on a node is there or answered, or that node departed
and the origin has yet to learn of it. -/
def Located (ledger : Ledger) (origin : NodeId) (job : JobId) (node : NodeId) : Prop :=
  ledger.live node ∧ 0 < ledger.held node job ∨ 0 < ledger.answers origin job ∨
    ledger.awaits origin node

/-- Every pending job that was not dropped is somewhere, and no job is there too often as long as
nobody departed. -/
structure Balanced (owner : JobId → Option NodeId) (ledger : Ledger) : Prop where
  distinct : ledger.nodes.Nodup
  joined : ∀ {node}, ledger.live node → node ∈ ledger.nodes
  home : ∀ {origin job node}, ledger.pends origin job node → owner job = some origin
  located : ∀ {origin job node}, ledger.live origin → ledger.pends origin job node →
    ledger.Located origin job node ∨ ledger.dropped job
  once : ledger.whole → ∀ {origin job}, owner job = some origin →
    ledger.total job + ledger.answers origin job ≤ ledger.submitted job

/-- Between two moments no node joined or departed, and nobody learned of a departure. -/
structure SameGrid (before after : Ledger) : Prop where
  nodes : after.nodes = before.nodes
  live : ∀ {node}, after.live node ↔ before.live node
  awaits : ∀ {origin node}, before.awaits origin node → after.awaits origin node
  submitted : ∀ job, before.submitted job ≤ after.submitted job
  whole : after.whole → before.whole
  dropped : ∀ {job}, before.dropped job → after.dropped job

/-- A sum over distinct nodes when one summand changes. -/
theorem sum_map_change {α : Type} {items : List α} (distinct : items.Nodup) {item : α}
    (member : item ∈ items) (before after : α → Nat)
    (same : ∀ other, other ≠ item → after other = before other) :
    (items.map after).sum + before item = (items.map before).sum + after item := by
  induction items with
  | nil => cases member
  | cons first rest ih =>
      rw [List.nodup_cons] at distinct
      rw [List.map_cons, List.map_cons, List.sum_cons, List.sum_cons]
      cases List.mem_cons.1 member with
      | inl equal =>
          subst equal
          have others : rest.map after = rest.map before := by
            apply List.map_congr_left
            intro other inside
            exact same other fun equal => distinct.1 (equal ▸ inside)
          rw [others]
          omega
      | inr inside =>
          have differs : first ≠ item := fun equal => distinct.1 (equal ▸ inside)
          have tail := ih distinct.2 inside
          rw [same first differs]
          omega

theorem held_le_total {ledger : Ledger} {node : NodeId} (member : node ∈ ledger.nodes)
    (job : JobId) : ledger.held node job ≤ ledger.total job :=
  List.le_sum_of_mem (List.mem_map_of_mem (f := fun node => ledger.held node job) member)

section Totals

variable {before after : Ledger}

theorem total_eq {job : JobId} (nodes : after.nodes = before.nodes)
    (held : ∀ node, after.held node job = before.held node job) :
    after.total job = before.total job := by
  simp only [total, nodes, held]

/-- The total of a job after it came to a node, or left one. -/
theorem total_change {node : NodeId} (job : JobId) (distinct : before.nodes.Nodup)
    (member : node ∈ before.nodes) (nodes : after.nodes = before.nodes)
    (held : ∀ other, other ≠ node → after.held other job = before.held other job) :
    after.total job + before.held node job = before.total job + after.held node job := by
  rw [total, total, nodes]
  exact sum_map_change distinct member (fun node => before.held node job)
    (fun node => after.held node job) held

end Totals

namespace Balanced

variable {owner : JobId → Option NodeId} {before after : Ledger} {self : NodeId} {job : JobId}

/-- As long as nobody departed, a pending job that was submitted once and was not dropped is there
exactly once. -/
theorem exact_of_whole {ledger : Ledger} {origin node : NodeId} (balanced : Balanced owner ledger)
    (whole : ledger.whole) (informed : ∀ node, ¬ ledger.awaits origin node)
    (live : ledger.live origin) (pending : ledger.pends origin job node)
    (kept : ¬ ledger.dropped job) (single : ledger.submitted job ≤ 1) :
    ledger.total job + ledger.answers origin job = 1 := by
  have most := balanced.once whole (balanced.home pending)
  have least : 0 < ledger.total job + ledger.answers origin job := by
    rcases (balanced.located live pending).resolve_right kept with
      ⟨there, holds⟩ | answered | waits
    · have part := held_le_total (balanced.joined there) job
      omega
    · omega
    · exact absurd waits (informed node)
  omega

/-- A change of what is held, answered and pending that loses nothing. -/
theorem step (balanced : Balanced owner before) (same : SameGrid before after)
    (home : ∀ {origin job node}, after.pends origin job node → owner job = some origin)
    (located : ∀ {origin job node}, after.live origin → after.pends origin job node →
      after.Located origin job node ∨ after.dropped job)
    (copies : ∀ {origin job}, owner job = some origin →
      after.total job + after.answers origin job ≤
        before.total job + before.answers origin job) : Balanced owner after where
  distinct := same.nodes ▸ balanced.distinct
  joined live := same.nodes ▸ balanced.joined (same.live.1 live)
  home := home
  located := located
  once whole _ job owned :=
    Nat.le_trans (Nat.le_trans (copies owned) (balanced.once (same.whole whole) owned))
      (same.submitted job)

/-- Whatever a node had in its hand may be dropped, if this is written down for all pending jobs
that are nowhere else. -/
theorem drop (balanced : Balanced owner before) (same : SameGrid before after)
    (held : ∀ node job, after.held node job ≤ before.held node job)
    (answers : ∀ origin job, after.answers origin job ≤ before.answers origin job)
    (pends : ∀ {origin job node}, after.pends origin job node → before.pends origin job node)
    (lost : ∀ {origin job node}, after.live origin → after.pends origin job node →
      ¬ after.Located origin job node → after.dropped job) : Balanced owner after := by
  refine balanced.step same (fun pending => balanced.home (pends pending)) ?_ ?_
  · intro origin job node live pending
    by_cases located : after.Located origin job node
    · exact .inl located
    · exact .inr (lost live pending located)
  · intro origin job _
    have fewer : after.total job ≤ before.total job := by
      rw [total, total, same.nodes]
      exact List.sum_le_sum fun node _ => held node job
    have answered := answers origin job
    omega

/-- Answers may be left out where nothing is pending any more. -/
theorem relax (balanced : Balanced owner before) (same : SameGrid before after)
    (held : ∀ node job, after.held node job = before.held node job)
    (fewer : ∀ origin job, after.answers origin job ≤ before.answers origin job)
    (pends : ∀ {origin job node}, after.pends origin job node → before.pends origin job node)
    (kept : ∀ {origin job node}, after.live origin → after.pends origin job node →
      after.answers origin job = before.answers origin job) : Balanced owner after := by
  refine balanced.step same (fun pending => balanced.home (pends pending)) ?_ ?_
  · intro origin job node live pending
    rw [Located, held, kept live pending, same.live]
    rcases balanced.located (same.live.1 live) (pends pending) with (here | answered | waits) | lost
    · exact .inl (.inl here)
    · exact .inl (.inr (.inl answered))
    · exact .inl (.inr (.inr (same.awaits waits)))
    · exact .inr (same.dropped lost)
  · intro origin job _
    rw [total_eq same.nodes fun node => held node job]
    have answered := fewer origin job
    omega

/-- A node answers for a job that it held. -/
theorem report {origin : NodeId} (balanced : Balanced owner before) (same : SameGrid before after)
    (member : self ∈ before.nodes) (owned : owner job = some origin)
    (held : ∀ node other, before.held node other =
      after.held node other + if node = self ∧ other = job then 1 else 0)
    (answers : ∀ node other, after.answers node other =
      before.answers node other + if node = origin ∧ other = job then 1 else 0)
    (pends : ∀ {origin job node}, after.pends origin job node → before.pends origin job node) :
    Balanced owner after := by
  refine balanced.step same (fun pending => balanced.home (pends pending)) ?_ ?_
  · intro asked other node live pending
    have holds := held node other
    have answered := answers asked other
    rw [Located, same.live]
    by_cases one : other = job
    · subst one
      have equal := (balanced.home (pends pending)).symm.trans owned
      rw [if_pos ⟨Option.some.inj equal, rfl⟩] at answered
      exact .inl (.inr (.inl (by omega)))
    · rw [if_neg fun both => one both.2] at holds answered
      rw [answered, ← show before.held node other = after.held node other by omega]
      rcases balanced.located (same.live.1 live) (pends pending) with (here | known | waits) | lost
      · exact .inl (.inl here)
      · exact .inl (.inr (.inl (by omega)))
      · exact .inl (.inr (.inr (same.awaits waits)))
      · exact .inr (same.dropped lost)
  · intro asked other known
    have change := total_change other balanced.distinct member same.nodes
      fun node differs => by simp [held node other, differs]
    have holds := held self other
    have answered := answers asked other
    by_cases one : other = job
    · subst one
      have equal := known.symm.trans owned
      rw [if_pos ⟨rfl, rfl⟩] at holds
      rw [if_pos ⟨Option.some.inj equal, rfl⟩] at answered
      omega
    · rw [if_neg fun both => one both.2] at holds answered
      omega

/-- A node brings a job that it has the answer for to another one, and notes this. -/
theorem place {target : NodeId} (balanced : Balanced owner before) (same : SameGrid before after)
    (member : target ∈ before.nodes) (owned : owner job = some self)
    (reached : before.live self → before.live target)
    (held : ∀ node other, after.held node other =
      before.held node other + if node = target ∧ other = job then 1 else 0)
    (answers : ∀ node other, before.answers node other =
      after.answers node other + if node = self ∧ other = job then 1 else 0)
    (pends : ∀ {origin other node}, after.pends origin other node →
      origin = self ∧ other = job ∧ node = target ∨
        other ≠ job ∧ before.pends origin other node) : Balanced owner after := by
  refine balanced.step same ?_ ?_ ?_
  · intro origin other node pending
    rcases pends pending with ⟨rfl, rfl, -⟩ | ⟨-, earlier⟩
    · exact owned
    · exact balanced.home earlier
  · intro origin other node live pending
    have holds := held node other
    have answered := answers origin other
    rw [Located, same.live]
    rcases pends pending with ⟨rfl, rfl, rfl⟩ | ⟨differs, earlier⟩
    · rw [if_pos ⟨rfl, rfl⟩] at holds
      exact .inl (.inl ⟨reached (same.live.1 live), by omega⟩)
    · rw [if_neg fun both => differs both.2] at holds answered
      rw [holds, ← show before.answers origin other = after.answers origin other by omega]
      rcases balanced.located (same.live.1 live) earlier with (here | known | waits) | lost
      · exact .inl (.inl (by simpa using here))
      · exact .inl (.inr (.inl known))
      · exact .inl (.inr (.inr (same.awaits waits)))
      · exact .inr (same.dropped lost)
  · intro origin other known
    have change := total_change other balanced.distinct member same.nodes
      fun node differs => by simp [held node other, differs]
    have holds := held target other
    have answered := answers origin other
    by_cases one : other = job
    · subst one
      have equal := known.symm.trans owned
      rw [if_pos ⟨rfl, rfl⟩] at holds
      rw [if_pos ⟨Option.some.inj equal, rfl⟩] at answered
      omega
    · rw [if_neg fun both => one both.2] at holds answered
      omega

/-- New jobs are submitted to a node, which has the answers for them until it places them. -/
theorem follow {jobs : List JobId} (balanced : Balanced owner before)
    (nodes : after.nodes = before.nodes) (live : ∀ {node}, after.live node ↔ before.live node)
    (awaits : ∀ {origin node}, before.awaits origin node → after.awaits origin node)
    (whole : after.whole → before.whole) (dropped : ∀ {job}, before.dropped job → after.dropped job)
    (owned : ∀ job ∈ jobs, owner job = some self)
    (held : ∀ node job, after.held node job = before.held node job)
    (answers : ∀ node job, after.answers node job =
      before.answers node job + if node = self then jobs.count job else 0)
    (submitted : ∀ job, after.submitted job = before.submitted job + jobs.count job)
    (pends : ∀ {origin job node}, after.pends origin job node →
      before.pends origin job node ∨ origin = self ∧ job ∈ jobs) : Balanced owner after where
  distinct := nodes ▸ balanced.distinct
  joined there := nodes ▸ balanced.joined (live.1 there)
  home pending := by
    rcases pends pending with earlier | ⟨rfl, new⟩
    · exact balanced.home earlier
    · exact owned _ new
  located {origin job node} there pending := by
    have answered := answers origin job
    rw [Located, held, live]
    rcases pends pending with earlier | ⟨rfl, new⟩
    · rcases balanced.located (live.1 there) earlier with (here | known | waits) | lost
      · exact .inl (.inl here)
      · exact .inl (.inr (.inl (by omega)))
      · exact .inl (.inr (.inr (awaits waits)))
      · exact .inr (dropped lost)
    · have several := List.count_pos_iff.2 new
      rw [if_pos rfl] at answered
      exact .inl (.inr (.inl (by omega)))
  once nobody origin job known := by
    have most := balanced.once (whole nobody) known
    have more := submitted job
    have answered := answers origin job
    rw [total_eq nodes fun node => held node job]
    split at answered
    · omega
    · omega

/-- A node learns that another one departed. It has the answers for the jobs that it lost. -/
theorem learn (balanced : Balanced owner before) (self gone : NodeId) (lost : List JobId)
    (nodes : after.nodes = before.nodes) (live : ∀ {node}, after.live node ↔ before.live node)
    (broken : ¬ after.whole) (dropped : ∀ {job}, before.dropped job → after.dropped job)
    (awaits : ∀ {origin node}, before.awaits origin node →
      after.awaits origin node ∨ origin = self ∧ node = gone)
    (held : ∀ node job, after.held node job = before.held node job)
    (answers : ∀ node job, after.answers node job =
      before.answers node job + if node = self then lost.count job else 0)
    (pends : ∀ {origin job node}, after.pends origin job node → before.pends origin job node)
    (covers : ∀ {job}, before.live self → before.pends self job gone → job ∈ lost) :
    Balanced owner after where
  distinct := nodes ▸ balanced.distinct
  joined there := nodes ▸ balanced.joined (live.1 there)
  home pending := balanced.home (pends pending)
  located {origin job node} there pending := by
    have answered := answers origin job
    rw [Located, held, live]
    rcases balanced.located (live.1 there) (pends pending) with (here | known | waits) | lost
    · exact .inl (.inl here)
    · exact .inl (.inr (.inl (by omega)))
    · rcases awaits waits with still | ⟨rfl, rfl⟩
      · exact .inl (.inr (.inr still))
      · have several := List.count_pos_iff.2 (covers (live.1 there) (pends pending))
        rw [if_pos rfl] at answered
        exact .inl (.inr (.inl (by omega)))
    · exact .inr (dropped lost)
  once whole := absurd whole broken

/-- Some nodes depart, and what was on them is lost. All others have yet to learn of it. -/
theorem depart (balanced : Balanced owner before) (nodes : after.nodes = before.nodes)
    (live : ∀ {node}, after.live node → before.live node) (broken : ¬ after.whole)
    (dropped : ∀ {job}, before.dropped job → after.dropped job)
    (awaits : ∀ {origin node}, before.awaits origin node → after.awaits origin node)
    (told : ∀ {origin node}, after.live origin → before.live node → ¬ after.live node →
      after.awaits origin node)
    (held : ∀ node job, after.live node → after.held node job = before.held node job)
    (answers : ∀ node job, after.live node → after.answers node job = before.answers node job)
    (pends : ∀ {origin job node}, after.pends origin job node → before.pends origin job node) :
    Balanced owner after where
  distinct := nodes ▸ balanced.distinct
  joined there := nodes ▸ balanced.joined (live there)
  home pending := balanced.home (pends pending)
  located {origin job node} there pending := by
    rw [Located, answers origin job there]
    rcases balanced.located (live there) (pends pending) with (⟨up, holds⟩ | known | waits) | lost
    · by_cases stays : after.live node
      · rw [held node job stays]
        exact .inl (.inl ⟨stays, holds⟩)
      · exact .inl (.inr (.inr (told there up stays)))
    · exact .inl (.inr (.inl known))
    · exact .inl (.inr (.inr (awaits waits)))
    · exact .inr (dropped lost)
  once whole := absurd whole broken

/-- A node joins that has nothing yet. -/
theorem join {new : NodeId} (balanced : Balanced owner before)
    (nodes : after.nodes = before.nodes ++ [new]) (fresh : new ∉ before.nodes)
    (live : ∀ {node}, after.live node ↔ before.live node ∨ node = new)
    (awaits : ∀ {origin node}, before.awaits origin node → after.awaits origin node)
    (whole : after.whole → before.whole) (dropped : ∀ {job}, before.dropped job → after.dropped job)
    (held : ∀ node job, after.held node job = if node = new then 0 else before.held node job)
    (answers : ∀ node job,
      after.answers node job = if node = new then 0 else before.answers node job)
    (submitted : after.submitted = before.submitted)
    (pends : ∀ {origin job node}, after.pends origin job node →
      origin ≠ new ∧ before.pends origin job node) : Balanced owner after where
  distinct := by
    rw [nodes, ← List.concat_eq_append, List.nodup_concat]
    exact ⟨fresh, balanced.distinct⟩
  joined there := by
    rw [nodes, List.mem_append, List.mem_singleton]
    exact (live.1 there).imp balanced.joined id
  home pending := balanced.home (pends pending).2
  located {origin job node} there pending := by
    obtain ⟨differs, earlier⟩ := pends pending
    have up : before.live origin := (live.1 there).resolve_right differs
    rw [Located, answers, if_neg differs, live]
    rcases balanced.located up earlier with (⟨here, holds⟩ | known | waits) | lost
    · have other : node ≠ new := fun equal => fresh (equal ▸ balanced.joined here)
      rw [held, if_neg other]
      exact .inl (.inl ⟨.inl here, holds⟩)
    · exact .inl (.inr (.inl known))
    · exact .inl (.inr (.inr (awaits waits)))
    · exact .inr (dropped lost)
  once nobody origin job known := by
    have most := balanced.once (whole nobody) known
    have same : after.total job = before.total job := by
      have others : before.nodes.map (fun node => after.held node job) =
          before.nodes.map fun node => before.held node job := by
        apply List.map_congr_left
        intro node member
        have differs : node ≠ new := fun equal => fresh (equal ▸ member)
        rw [held, if_neg differs]
      rw [total, nodes, List.map_append, List.sum_append, others, List.map_singleton,
        List.sum_singleton, held, if_pos rfl]
      rfl
    rw [same, submitted, answers]
    split
    · omega
    · exact most

end Balanced

end Ledger

end JobGrid
