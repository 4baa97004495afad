import QueryScope.Checked
import QueryScope.Expression.Sql
import QueryScope.Plan.Visitor

/-!
# Plan listings

A plan as indented text with one line for each node, a node above its sources. The lines can be
moved in so far that no text can hold them; the listing is then given up.
-/

namespace QueryScope

/-- How a listing is laid out. -/
structure ListingStyle where
  /-- Spaces per level. -/
  indent : UInt64 := 4
  /-- Whether each line ends in the symbols that its node puts out. -/
  showsLayout : Bool := false
deriving DecidableEq

/-- A listing under construction. -/
structure Listing where
  /-- The lines so far. -/
  lines : BoundedText := .empty
  /-- The level of the next line, at most the number of lines so far. -/
  depth : Nat := 0

/-- An expression in a listing. One that has no SQL text shows its kind in angle brackets. -/
def Expression.listingText (e : Expression) : String :=
  match e.toSql none with
  | .ok text => text
  | .error (.unsupported kind) => s!"<{kind}>"
  | .error error => error.message

namespace Listing

/-- Texts with commas between them, in brackets. -/
def bracketed (texts : List String) : String :=
  s!"[{Sql.commaSeparated texts}]"

/-- Symbols with the expressions that they stand for. -/
def assignments (list : List (String × Expression)) : String :=
  bracketed (list.map fun (symbol, e) => s!"{symbol} := {e.listingText}")

/-- A row of values. -/
def row (cells : List Expression) : String :=
  let texts := cells.map Expression.listingText
  s!"({Sql.commaSeparated texts})"

/-- The end of a line for a node with these symbols. -/
def layoutSuffix (style : ListingStyle) (layout : List String) : String :=
  if style.showsLayout && !layout.isEmpty then s!" => {bracketed layout}" else ""

/-- The listing with a line at the present level behind it. -/
def withLine (style : ListingStyle) (text : String) (layout : List String) (l : Listing) :
    Checked Listing := do
  let margin ← Checked.spaces (l.depth * style.indent.toNat)
  let lines ← l.lines.append s!"{margin}- {text}{layoutSuffix style layout}\n"
  return { l with lines }

/-- Append a line at the present level. -/
def line (style : ListingStyle) (text : String) (layout : List String := []) :
    Visit (Checked Listing) Unit :=
  modify (·.bind (withLine style text layout))

/-- List sources one level below. -/
def below (sources : List (PlanNode.Source (Checked Listing) Unit)) :
    Visit (Checked Listing) Unit := do
  modify (·.map fun l => { l with depth := l.depth + 1 })
  Branch.visitAll sources
  modify (·.map fun l => { l with depth := l.depth - 1 })

/-- The visitor that appends a node's line and then lists its sources. -/
def lister (style : ListingStyle) : PlanNode.Visitor (Checked Listing) Unit where
  output _ source columnNames outputs := do
    line style s!"Output{bracketed columnNames}" outputs
    below [source]
  project _ source list := do
    line style s!"Project{assignments list}" (list.map (·.1))
    below [source]
  filter _ source predicate := do
    line style s!"Filter[{predicate.listingText}]"
    below [source]
  tableScan _ table outputSymbols _ :=
    line style s!"TableScan[{table.connector.text}:{table.handle.schemaTable.text}]" outputSymbols
  aggregation _ source aggregations groupingKeys step := do
    let groups := if groupingKeys.isEmpty then "" else s!" by {bracketed groupingKeys}"
    line style s!"Aggregation({Named.name step}){assignments aggregations}{groups}"
      (groupingKeys ++ aggregations.map (·.1))
    below [source]
  limit _ source count step := do
    line style s!"Limit({Named.name step})[{count}]"
    below [source]
  exchange _ type scope scheme sources := do
    line style
      s!"Exchange({Named.name scope}, {Named.name type})[{scheme.partitioning.handle.handle.label}]"
      scheme.outputLayout
    below sources
  remoteSource _ fragments outputs _ :=
    line style ("RemoteSource" ++ bracketed (fragments.map (·.text))) outputs
  values _ outputSymbols rows :=
    line style ("Values" ++ bracketed (rows.map row)) outputSymbols

/-- The text of a walk that goes on from a listing. -/
def finish (start : Checked Listing) (walk : Visit (Checked Listing) Unit) :
    Checked (Except VisitError String) :=
  let (result, listing) := walk.runFrom start
  listing.map fun l => result.map fun () => l.lines.text

/-- The lines above the plan of a fragment, those behind the first one with a margin. -/
def headingText (style : ListingStyle) (margin : String) (f : Fragment) : String :=
  let layout :=
    if style.showsLayout then
      s!"{margin}Output layout: {bracketed f.scheme.outputLayout}\n" ++
        s!"{margin}Output partitioning: {f.scheme.partitioning.handle.handle.label}\n"
    else ""
  s!"Fragment {f.id.text} [{f.partitioning.handle.label}]\n{layout}"

/-- The listing of a fragment before its plan. The margin is made whether there are lines with it or
not. -/
def heading (style : ListingStyle) (f : Fragment) : Checked Listing := do
  let margin ← Checked.spaces style.indent.toNat
  let lines ← BoundedText.empty.append (headingText style margin f)
  return { lines, depth := 1 }

end Listing

/-- The listing of a plan. -/
def PlanNode.listing (style : ListingStyle) (node : PlanNode) :
    Checked (Except VisitError String) :=
  Listing.finish (some {}) (node.accept (Listing.lister style))

/-- The listing of a fragment: a heading, and below it the plan one level in. -/
def Fragment.listing (style : ListingStyle) (f : Fragment) : Checked (Except VisitError String) :=
  Listing.finish (Listing.heading style f) (f.root.accept (Listing.lister style))

end QueryScope
