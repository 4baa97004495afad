import QueryScope.Enumeration

/-!
# The names of enumerations

Every value of an enumeration is read back from its name, so that no two values share one.
-/

namespace QueryScope

/-- An enumeration whose values are found by their names. -/
class Named.Lawful (α : Type) [Named α] : Prop where
  parse_name : ∀ a : α, Named.parse α (Named.name a) = .ok a

instance : Named.Lawful QueryState where
  parse_name a := by cases a <;> rfl

instance : Named.Lawful StageState where
  parse_name a := by cases a <;> rfl

instance : Named.Lawful TaskState where
  parse_name a := by cases a <;> rfl

instance : Named.Lawful BufferState where
  parse_name a := by cases a <;> rfl

instance : Named.Lawful BufferType where
  parse_name a := by cases a <;> rfl

instance : Named.Lawful ExchangeType where
  parse_name a := by cases a <;> rfl

instance : Named.Lawful ExchangeScope where
  parse_name a := by cases a <;> rfl

instance : Named.Lawful AggregationStep where
  parse_name a := by cases a <;> rfl

instance : Named.Lawful LimitStep where
  parse_name a := by cases a <;> rfl

instance : Named.Lawful SystemPartitioning where
  parse_name a := by cases a <;> rfl

instance : Named.Lawful SystemPartitionFunction where
  parse_name a := by cases a <;> rfl

instance : Named.Lawful BucketFunctionType where
  parse_name a := by cases a <;> rfl

instance : Named.Lawful HiveColumnType where
  parse_name a := by cases a <;> rfl

instance : Named.Lawful ComparisonOperator where
  parse_name a := by cases a <;> rfl

instance : Named.Lawful LogicalOperator where
  parse_name a := by cases a <;> rfl

instance : Named.Lawful ArithmeticOperator where
  parse_name a := by cases a <;> rfl

end QueryScope
