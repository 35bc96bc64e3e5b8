import JobGrid.Balance.Ring
import JobGrid.Cli.Arguments
import JobGrid.Json.Encode
import JobGrid.Json.Writer
import JobGrid.Text.Column

/-!
# The ring report

The report on an affinity ring says how many positions it has, which node each of some keys maps
to, and how many of the keys each node gets. Nodes are numbered from one, so that reports are
comparable.
-/

namespace JobGrid

/-- What the report is about. -/
structure RingArguments where
  nodes : Nat
  replicas : Nat
  seed : String
  keys : Nat
  output : OutputFormat

namespace RingArguments

def forms : List OptionForm :=
  [{ name := "nodes" }, { name := "replicas" }, { name := "seed" }, { name := "keys" },
    OutputFormat.form]

/-- Reads the arguments of the report. -/
def ofArguments? (arguments : List String) : Option RingArguments := do
  let given ← GivenOptions.read forms arguments ∅
  return {
    nodes := ← given.valueAt "nodes" (GivenOptions.natural? (2 ^ 128)) 3
    replicas := ← given.valueAt "replicas" (GivenOptions.natural? (2 ^ 32)) 1000
    seed := ← given.valueAt "seed" some ""
    keys := ← given.valueAt "keys" (GivenOptions.natural? (2 ^ 64)) 10
    output := ← given.valueAt "output" OutputFormat.ofName? .table }

/-- The ring that the report is about. -/
def ring (arguments : RingArguments) : Ring :=
  (List.range arguments.nodes).foldl
    (fun ring index => ring.add (.ofNat (index + 1)) arguments.replicas)
    (Ring.empty arguments.seed .md5)

end RingArguments

/-- The report on a ring. -/
structure RingReport where
  positions : Nat
  mappings : List (String × NodeId)

namespace RingReport

/-- The keys of a report. -/
def key (index : Nat) : String := "key-" ++ Digits.decimalText index

/-- Looks up so many keys. -/
def ofRing (ring : Ring) (keys : Nat) : RingReport where
  positions := ring.size
  mappings := (List.range keys).filterMap fun index =>
    (ring.lookup? (.ofString (key index))).map ((key index, ·))

/-- How many keys each node gets, in the order of the nodes. -/
def distribution (report : RingReport) : List (NodeId × Nat) :=
  let nodes := report.mappings.map Prod.snd
  (nodes.eraseDups.mergeSort Uuid.ble).map fun node => (node, nodes.count node)

def toJson (report : RingReport) : Json :=
  .ofMembers [
    ("positions", encode report.positions),
    ("mappings", encode (report.mappings.map fun mapping =>
      Json.ofMembers [("key", encode mapping.1), ("node_id", encode mapping.2)])),
    ("distribution", .ofMembers (report.distribution.map fun share =>
      (share.1.text, encode share.2)))]

/-- The lines of the report as a table. -/
def tableLines (report : RingReport) : List String :=
  ["Ring positions: " ++ Digits.decimalText report.positions, "",
    Column.left 12 "KEY" ++ " NODE", Column.rule 50] ++
  report.mappings.map (fun mapping => Column.left 12 mapping.1 ++ " " ++ mapping.2.text) ++
  ["", Column.left 38 "NODE" ++ " KEYS"] ++
  report.distribution.map fun share =>
    Column.left 38 share.1.text ++ " " ++ Digits.decimalText share.2

/-- The text of the report. -/
def text (report : RingReport) : OutputFormat → String
  | .table => Column.lines report.tableLines
  | .json => report.toJson.indentedText ++ "\n"

end RingReport

end JobGrid
