import StreamQuery.Value

/-!
# Columns

A header is a list of columns. Columns of a table have names, all of them different; the
columns of a query's result may share one.
-/

namespace StreamQuery

/-- A named and typed place in a header. -/
structure Column where
  name : String
  datatype : DataType
  deriving DecidableEq

namespace Column

/-- A column as it is declared. -/
def display (c : Column) : String := c.name ++ " " ++ c.datatype.display

def renamed (c : Column) (name : String) : Column := ⟨name, c.datatype⟩

end Column

end StreamQuery
