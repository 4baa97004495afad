import QueryScope.Json.Printer
import QueryScope.Plan.Listing

/-!
# Preferences

What a user of the command line can set once and for all, and what the arguments of a single command
put in its place.
-/

namespace QueryScope

/-- How payloads are decoded. -/
structure DecodePreferences where
  /-- Whether a payload that cannot be decoded is shown with its error. -/
  bestEffort : Bool := false
  /-- Whether JSON is written in the pretty form. -/
  pretty : Bool := false
deriving DecidableEq

/-- How plans are listed. -/
structure PlanPreferences where
  /-- Whether lines end in the symbols that their nodes put out. -/
  showLayout : Bool := false
  /-- Spaces per level. -/
  indent : UInt64 := 4
deriving DecidableEq

/-- All preferences. -/
structure Preferences where
  /-- How payloads are decoded. -/
  decode : DecodePreferences := {}
  /-- How plans are listed. -/
  plan : PlanPreferences := {}
deriving DecidableEq

/-- Values that take the place of preferences; those left out keep the preference. -/
structure Overrides where
  /-- In place of `DecodePreferences.bestEffort`. -/
  bestEffort : Option Bool := none
  /-- In place of `DecodePreferences.pretty`. -/
  pretty : Option Bool := none
  /-- In place of `PlanPreferences.showLayout`. -/
  showLayout : Option Bool := none
  /-- In place of `PlanPreferences.indent`. -/
  indent : Option UInt64 := none
deriving DecidableEq

/-- The layout of plan listings. -/
def PlanPreferences.style (p : PlanPreferences) : ListingStyle where
  indent := p.indent
  showsLayout := p.showLayout

namespace Preferences

/-- The preferences with some values replaced. -/
def override (p : Preferences) (o : Overrides) : Preferences where
  decode := {
    bestEffort := o.bestEffort.getD p.decode.bestEffort
    pretty := o.pretty.getD p.decode.pretty }
  plan := {
    showLayout := o.showLayout.getD p.plan.showLayout
    indent := o.indent.getD p.plan.indent }

/-- The preferences as JSON. -/
def encode (p : Preferences) : Json :=
  .object [
    ("decode", .object [("best_effort", .bool p.decode.bestEffort),
      ("pretty", .bool p.decode.pretty)]),
    ("plan", .object [("show_layout", .bool p.plan.showLayout),
      ("indent", .ofUInt64 p.plan.indent)])]

/-- The preferences as they are stored and shown. -/
def text (p : Preferences) : String :=
  p.encode.pretty

end Preferences

end QueryScope
