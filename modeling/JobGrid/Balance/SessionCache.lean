import JobGrid.Error
import JobGrid.Table

/-!
# Session caches

What a balancer remembers about task sessions is kept in a cache. The first pick of a session
stores a value, which all its picks share until the session is mapped. From then on nothing is
remembered for it, so that later picks see the grid as it is.
-/

namespace JobGrid

/-- What is remembered about a session. -/
inductive SessionEntry (α : Type) where
  | cached (value : α)
  | mapped

/-- What a look at a session finds. -/
inductive CacheLookup (α : Type) where
  /-- Nothing was stored. -/
  | miss
  /-- The value that the session uses. -/
  | cached (value : α)
  /-- The session has been mapped. -/
  | mapped

/-- What is remembered about all sessions. -/
abbrev SessionCache (α : Type) := Table SessionId (SessionEntry α)

namespace SessionCache

variable {α : Type}

def lookup (cache : SessionCache α) (session : SessionId) : CacheLookup α :=
  match cache.get? session with
  | none => .miss
  | some (.cached value) => .cached value
  | some .mapped => .mapped

/-- Stores the value of a session that has none, and gives the value to use: the one that
was stored first, or this one where nothing is stored any more. -/
def store (cache : SessionCache α) (session : SessionId) (value : α) : α × SessionCache α :=
  match cache.get? session with
  | none => (value, cache.insert session (.cached value))
  | some (.cached first) => (first, cache)
  | some .mapped => (value, cache)

/-- Drops the value of a session for good; says whether there was one. -/
def markMapped (cache : SessionCache α) (session : SessionId) : Bool × SessionCache α :=
  match cache.get? session with
  | some (.cached _) => (true, cache.insert session .mapped)
  | _ => (false, cache)

def isMapped (cache : SessionCache α) (session : SessionId) : Bool :=
  match cache.get? session with
  | some .mapped => true
  | _ => false

/-- Forgets a session; says whether it was known. -/
def forget (cache : SessionCache α) (session : SessionId) : Bool × SessionCache α :=
  (cache.contains session, cache.erase session)

end SessionCache

end JobGrid
