import JobGrid.Node.Basic
import JobGrid.Steal.Json

/-!
# The dashboard

The status pages of a node can only be read. They say how many jobs it holds and what it has
done, and show its figures of work stealing. Every answer may be used by pages of any origin.
-/

namespace JobGrid

/-- A status page. -/
inductive Page where
  | node
  | stealing
  deriving DecidableEq

namespace Page

/-- Where a page is found. -/
def path : Page → String
  | node => "/api/node"
  | stealing => "/api/stealing"

/-- The page that a target names; what follows the path does not matter. -/
def ofTarget? (target : String) : Option Page :=
  let path := String.ofList (target.toList.takeWhile fun char => char ≠ '?' ∧ char ≠ '#')
  [node, stealing].find? fun page => page.path = path

end Page

namespace NodeStats

/-- The figures as members of an object. -/
def fields (stats : NodeStats) : List (String × Json) :=
  [("executed", encode stats.executed), ("executed_stolen", encode stats.executedStolen),
    ("handed_off", encode stats.handedOff)]

end NodeStats

namespace Node

/-- The state of a node as it is reported. -/
def statusJson (node : Node) : Json :=
  .ofMembers <|
    [("node_id", encode node.id), ("balancer", encode node.balancer.name),
      ("waiting_jobs", encode node.queue.waiting.length),
      ("active_jobs", encode node.queue.active.size)] ++ node.stats.fields

/-- What a page shows. -/
def render (node : Node) (now : Moment) : Page → Json
  | .node => node.statusJson
  | .stealing => (node.resolver.status now).toJson

end Node

/-- The answer to a request for a page. -/
structure PageResponse where
  status : Nat
  contentType : Option String := none
  body : Option Json := none

namespace PageResponse

/-- The origins whose pages may use an answer. -/
def allowedOrigin : String := "*"

end PageResponse

namespace Node

/-- Answers a request. Asking for the options of a page always succeeds; a page can be read,
with or without its content. -/
def respond (node : Node) (now : Moment) (method target : String) : PageResponse :=
  if method = "OPTIONS" then { status := 200 }
  else
    match Page.ofTarget? target with
    | none => { status := 404 }
    | some page =>
        if method = "GET" then
          { status := 200, contentType := "application/json", body := node.render now page }
        else if method = "HEAD" then { status := 200, contentType := "application/json" }
        else { status := 405 }

end Node

end JobGrid
