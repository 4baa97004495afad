import Mathlib.Data.String.Basic
import QueryScope.Plan.Listing
import QueryScope.Proofs.Rendering
import QueryScope.Proofs.Visiting

/-!
# The layout of listings

A listing is written by a walk that keeps the text so far and the level of the next line. What it
writes for a plan is told by recursion alone: the node's line, and below it, one level further in,
what is written for its sources. The walk ends at the level where it began, unless the text gets
beyond the largest texts; then it is given up, and nothing else can stop it.
-/

namespace QueryScope

open Branching (fold fold_eq)

/-! ## Sizes -/

/-- The text is no larger than the largest texts. -/
abbrev Fits (text : String) : Prop := text.utf8ByteSize ≤ maxTextSize

theorem Fits.of_append_left {text rest : String} (h : Fits (text ++ rest)) : Fits text := by
  rw [Fits, String.utf8ByteSize_append] at h
  exact Nat.le_of_add_right_le h

theorem Fits.of_append_right {text rest : String} (h : Fits (text ++ rest)) : Fits rest := by
  rw [Fits, String.utf8ByteSize_append] at h
  exact Nat.le_of_add_left_le h

theorem utf8ByteSize_replicate (count : Nat) :
    (String.ofList (List.replicate count ' ')).utf8ByteSize = count := by
  induction count with
  | zero => rfl
  | succ count ih =>
    rw [List.replicate_succ', String.ofList_append, String.utf8ByteSize_append, ih]
    rfl

theorem Checked.spaces_eq (count : Nat) :
    spaces count = if Fits (String.ofList (List.replicate count ' ')) then
      some (String.ofList (List.replicate count ' ')) else none := by
  simp only [Fits, utf8ByteSize_replicate]
  rfl

namespace BoundedText

theorem append_of_fits {t : BoundedText} {rest : String} (h : Fits (t.text ++ rest)) :
    t.append rest = some ⟨t.text ++ rest, h⟩ :=
  dif_pos h

theorem append_of_not_fits {t : BoundedText} {rest : String} (h : ¬Fits (t.text ++ rest)) :
    t.append rest = none :=
  dif_neg h

theorem append_empty (t : BoundedText) : t.append "" = some t := by
  have h : Fits (t.text ++ "") := by rw [String.append_empty]; exact t.size_le
  rw [append_of_fits h]
  simp

/-- Two pieces fit one after the other if they fit together. -/
theorem append_bind_append (t : BoundedText) (first second : String) :
    (t.append first).bind (·.append second) = t.append (first ++ second) := by
  by_cases h : Fits (t.text ++ first)
  · rw [append_of_fits h, Option.bind_some, append, append]
    simp only [String.append_assoc]
  · have hall : ¬Fits (t.text ++ (first ++ second)) := by
      rw [← String.append_assoc]
      exact mt Fits.of_append_left h
    rw [append_of_not_fits h, append_of_not_fits hall, Option.bind_none]

theorem map_empty_append {β : Type} (f : String → β) (rest : String) :
    (empty.append rest).map (fun t => f t.text) = if Fits rest then some (f rest) else none := by
  have hempty : empty.text ++ rest = rest := String.empty_append
  by_cases h : Fits rest
  · rw [append_of_fits (hempty.symm ▸ h), if_pos h]
    exact congrArg (some ∘ f) hempty
  · rw [append_of_not_fits (hempty.symm ▸ h), if_neg h, Option.map_none]

end BoundedText

namespace Listing

variable (style : ListingStyle)

/-! ## Lines -/

/-- Texts between brackets. -/
def listed (texts : List String) : String :=
  "[" ++ ", ".intercalate texts ++ "]"

/-- The symbols and what they stand for. -/
def definitions (list : List (String × Expression)) : String :=
  listed (list.map fun definition => definition.1 ++ " := " ++ definition.2.listingText)

/-- What the line of a node says. -/
def headline : PlanNode → String
  | .output _ _ columnNames _ => "Output" ++ listed columnNames
  | .project _ _ list => "Project" ++ definitions list
  | .filter _ _ predicate => "Filter[" ++ predicate.listingText ++ "]"
  | .tableScan _ table _ _ =>
    "TableScan[" ++ table.connector.text ++ ":" ++ table.handle.schemaTable.text ++ "]"
  | .aggregation _ _ aggregations groupingKeys step =>
    "Aggregation(" ++ Named.name step ++ ")" ++ definitions aggregations ++
      (if groupingKeys.isEmpty then "" else " by " ++ listed groupingKeys)
  | .limit _ _ count step => "Limit(" ++ Named.name step ++ ")[" ++ toString count ++ "]"
  | .exchange _ type scope scheme _ =>
    "Exchange(" ++ Named.name scope ++ ", " ++ Named.name type ++ ")[" ++
      scheme.partitioning.handle.handle.label ++ "]"
  | .remoteSource _ fragments _ _ => "RemoteSource" ++ listed (fragments.map (·.text))
  | .values _ _ rows => "Values" ++ listed (rows.map fun cells =>
    "(" ++ ", ".intercalate (cells.map Expression.listingText) ++ ")")

/-- The symbols that a node puts out, as far as a line shows any. -/
def layout : PlanNode → List String
  | .output _ _ _ outputs => outputs
  | .project _ _ list => list.map (·.1)
  | .tableScan _ _ outputSymbols _ => outputSymbols
  | .aggregation _ _ aggregations groupingKeys _ => groupingKeys ++ aggregations.map (·.1)
  | .exchange _ _ _ scheme _ => scheme.outputLayout
  | .remoteSource _ _ outputs _ => outputs
  | .values _ outputSymbols _ => outputSymbols
  | .filter .. | .limit .. => []

/-- So many spaces for every level. -/
def margin (style : ListingStyle) (depth : Nat) : String :=
  String.ofList (List.replicate (depth * style.indent.toNat) ' ')

/-- The line of a node at a level. -/
def nodeLine (style : ListingStyle) (node : PlanNode) (depth : Nat) : String :=
  margin style depth ++ "- " ++ headline node ++
    (if style.showsLayout = true ∧ layout node ≠ [] then
      " => [" ++ ", ".intercalate (layout node) ++ "]" else "") ++ "\n"

theorem layoutSuffix_eq (symbols : List String) : layoutSuffix style symbols =
    if style.showsLayout = true ∧ symbols ≠ [] then
      " => [" ++ ", ".intercalate symbols ++ "]" else "" := by
  have hiff : (style.showsLayout && !symbols.isEmpty) = true ↔
      style.showsLayout = true ∧ symbols ≠ [] := by simp
  simp only [layoutSuffix, hiff]
  rfl

/-- Text behind the present one, unless that gets too large; the level stays. -/
def append (text : Nat → String) (l : Checked Listing) : Checked Listing :=
  l.bind fun l => (l.lines.append (text l.depth)).map fun lines => { l with lines }

theorem append_append (text text' : Nat → String) (l : Checked Listing) :
    append text' (append text l) = append (fun depth => text depth ++ text' depth) l := by
  cases l with
  | none => rfl
  | some l =>
    simp only [append, Option.bind_some, ← BoundedText.append_bind_append]
    cases l.lines.append (text l.depth) <;> rfl

theorem append_empty (l : Checked Listing) : append (fun _ => "") l = l := by
  cases l with
  | none => rfl
  | some l =>
    simp only [append, Option.bind_some, BoundedText.append_empty]
    rfl

theorem Fits.of_nodeLine {node : PlanNode} {depth : Nat} (h : Fits (nodeLine style node depth)) :
    Fits (margin style depth) := by
  rw [nodeLine] at h
  exact h.of_append_left.of_append_left.of_append_left.of_append_left

/-- Where the margin gets too wide, so does the line. -/
theorem withLine_eq (node : PlanNode) (l : Listing) :
    withLine style (headline node) (layout node) l =
      (l.lines.append (nodeLine style node l.depth)).map fun lines => { l with lines } := by
  rw [withLine, Checked.spaces_eq, layoutSuffix_eq]
  by_cases h : Fits (margin style l.depth)
  · rw [margin] at h
    rw [if_pos h, Option.map_eq_bind]
    rfl
  · have hline : ¬Fits (l.lines.text ++ nodeLine style node l.depth) :=
      fun hfits => h (Fits.of_nodeLine style hfits.of_append_right)
    rw [margin] at h
    rw [if_neg h, BoundedText.append_of_not_fits hline]
    rfl

theorem performs_line (node : PlanNode) :
    (line style (headline node) (layout node)).Performs (append (nodeLine style node)) := by
  have hline : (fun l : Checked Listing => l.bind (withLine style (headline node) (layout node))) =
      append (nodeLine style node) := by
    funext l
    simp only [append, ← withLine_eq]
  rw [← hline]
  exact Visit.performs_modify _

/-! ## Plans -/

/-- The text of a plan from a level on: the line of its root, and then the texts of the sources one
level further in. -/
def render (style : ListingStyle) : PlanNode → (depth : Nat) → String :=
  fold fun node below depth =>
    nodeLine style node depth ++ String.join (below.map fun text => text (depth + 1))

theorem render_eq (style : ListingStyle) (node : PlanNode) (depth : Nat) :
    render style node depth = nodeLine style node depth ++
      String.join (node.sources.map fun source => render style source (depth + 1)) := by
  rw [render, fold_eq, List.map_map]
  rfl

theorem render_of_sources_eq_nil {node : PlanNode} (h : node.sources = []) :
    render style node = nodeLine style node := by
  funext depth
  rw [render_eq, h]
  exact String.append_empty

theorem foldl_append (text : PlanNode → Nat → String) (nodes : List PlanNode)
    (l : Checked Listing) : nodes.foldl (fun l node => append (text node) l) l =
      append (fun depth => String.join (nodes.map fun node => text node depth)) l := by
  induction nodes generalizing l with
  | nil => exact (append_empty l).symm
  | cons node rest ih =>
    rw [List.foldl_cons, ih, append_append]
    simp only [List.map_cons, String.join_cons]

/-- What is put behind the text one level further in comes from the next level. -/
theorem append_below (text : Nat → String) (l : Checked Listing) :
    (append text (l.map fun l => { l with depth := l.depth + 1 })).map
      (fun l => { l with depth := l.depth - 1 }) = append (fun depth => text (depth + 1)) l := by
  cases l with
  | none => rfl
  | some l =>
    simp only [append, Option.map_some, Option.bind_some]
    cases l.lines.append (text (l.depth + 1)) <;> rfl

/-- The level goes up for the sources and comes down again behind them. -/
theorem performs_below {sources : List PlanNode}
    (h : ∀ source ∈ sources,
      (source.accept (lister style)).Performs (append (render style source))) :
    (below (PlanNode.branches (lister style) sources)).Performs (append fun depth =>
      String.join (sources.map fun source => render style source (depth + 1))) := by
  have hdown : Visit.Performs _ fun l : Checked Listing =>
      l.map fun l => { l with depth := l.depth + 1 } := Visit.performs_modify _
  have hup : Visit.Performs _ fun l : Checked Listing =>
      l.map fun l => { l with depth := l.depth - 1 } := Visit.performs_modify _
  have hall := PlanNode.performs_branches h
  simp only [foldl_append] at hall
  have hwalk := hdown.bind fun _ => hall.bind fun _ => hup
  simp only [append_below] at hwalk
  exact hwalk

/-- A plan's text is put behind the present one, and the level is the same afterwards. -/
theorem performs_lister (node : PlanNode) :
    (node.accept (lister style)).Performs (append (render style node)) := by
  induction node using Branching.induction_on with
  | step node ih =>
    have hline := performs_line style node
    have hsources : ∀ source ∈ node.sources,
      (source.accept (lister style)).Performs (append (render style source)) := ih
    have hbelow := performs_below style hsources
    have hrender : append (render style node) = fun l =>
        append (fun depth => String.join
          (node.sources.map fun source => render style source (depth + 1)))
          (append (nodeLine style node) l) := by
      funext l
      simp only [append_append, ← render_eq]
    -- a kind without sources writes its line and does not touch the level
    cases node with
    | output | project | filter | aggregation | limit | exchange =>
      rw [hrender]
      exact hline.bind fun _ => hbelow
    | tableScan | remoteSource | values =>
      rw [render_of_sources_eq_nil style rfl]
      exact hline

/-! ## Expressions -/

/-- An expression without SQL text shows as the kind of a node in it that has none. -/
theorem listingText_cases (e : Expression) :
    (∃ text, e.toSql none = .ok text ∧ e.listingText = text) ∨
      ∃ node ∈ leaves e, e.toSql none = .error (.unsupported node.kind) ∧
        e.listingText = "<" ++ node.kind ++ ">" := by
  cases h : e.toSql none with
  | ok text => exact Or.inl ⟨text, rfl, by rw [Expression.listingText, h]⟩
  | error x =>
    obtain ⟨⟨query, hquery⟩, rfl⟩ := Expression.toSql_none_error_iff.mp h
    exact Or.inr ⟨_, hquery, rfl, by rw [Expression.listingText, h]; rfl⟩

/-! ## Listings -/

theorem finish_of_performs {walk : Visit (Checked Listing) Unit}
    {f : Checked Listing → Checked Listing} (h : walk.Performs f) (start : Checked Listing) :
    finish start walk = (f start).map fun l => .ok l.lines.text := by
  rw [finish, h start]
  rfl

theorem headingText_eq (margin : String) (f : Fragment) : headingText style margin f =
    "Fragment " ++ f.id.text ++ " [" ++ f.partitioning.handle.label ++ "]\n" ++
      (if style.showsLayout = true then
        margin ++ "Output layout: [" ++ ", ".intercalate f.scheme.outputLayout ++ "]\n" ++
          (margin ++ "Output partitioning: " ++ f.scheme.partitioning.handle.handle.label ++ "\n")
      else "") := by
  simp only [headingText, bracketed, Sql.commaSeparated]
  split
  · -- the brackets are put together from other pieces of text
    simp only [← String.toList_inj, String.toList_append, toString]
    simp
  · rfl

theorem heading_of_fits {f : Fragment} (h : Fits (margin style 1)) : heading style f =
    (BoundedText.empty.append (headingText style (margin style 1) f)).map fun lines =>
      { lines, depth := 1 } := by
  rw [margin, Nat.one_mul] at h ⊢
  rw [heading, Checked.spaces_eq, if_pos h, Option.map_eq_bind]
  rfl

theorem heading_of_not_fits {f : Fragment} (h : ¬Fits (margin style 1)) :
    heading style f = none := by
  rw [margin, Nat.one_mul] at h
  rw [heading, Checked.spaces_eq, if_neg h]
  rfl

/-- The text of a fragment: its heading, and the plan one level in. -/
def renderFragment (style : ListingStyle) (f : Fragment) : String :=
  headingText style (margin style 1) f ++ render style f.root 1

theorem append_render_heading (f : Fragment) :
    append (render style f.root) (heading style f) =
      (BoundedText.empty.append (renderFragment style f)).map fun lines =>
        { lines, depth := 1 } := by
  by_cases h : Fits (margin style 1)
  · rw [heading_of_fits style h, renderFragment, ← BoundedText.append_bind_append]
    cases BoundedText.empty.append (headingText style (margin style 1) f) <;> rfl
  · -- the root has this margin, too
    have hall : ¬Fits (renderFragment style f) := by
      rw [renderFragment, render_eq]
      exact fun hfits => h (Fits.of_nodeLine style hfits.of_append_right.of_append_left)
    rw [heading_of_not_fits style h, BoundedText.append_of_not_fits (by
      rw [BoundedText.empty, String.empty_append]; exact hall)]
    rfl

end Listing

theorem PlanNode.listing_eq (style : ListingStyle) (node : PlanNode) : node.listing style =
    if Fits (Listing.render style node 0) then some (.ok (Listing.render style node 0))
    else none := by
  rw [listing, Listing.finish_of_performs (Listing.performs_lister style node)]
  simp only [Listing.append, Option.bind_some, Option.map_map]
  exact BoundedText.map_empty_append Except.ok _

theorem Fragment.listing_eq (style : ListingStyle) (f : Fragment) : f.listing style =
    if Fits (Listing.renderFragment style f) then some (.ok (Listing.renderFragment style f))
    else none := by
  rw [listing, Listing.finish_of_performs (Listing.performs_lister style f.root),
    Listing.append_render_heading, Option.map_map]
  exact BoundedText.map_empty_append Except.ok _

/-- One limit above constant rows. -/
def PlanNode.sampleLimit : PlanNode :=
  .limit ⟨"9", by decide⟩ (.values ⟨"8", by decide⟩ ["x"] []) 5 .finalStep

example : PlanNode.sampleLimit.listing { indent := 2, showsLayout := true } =
    some (.ok "- Limit(FINAL)[5]\n  - Values[] => [x]\n") := by
  cbv

end QueryScope
