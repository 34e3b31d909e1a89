namespace AfuBench.Text

def dropReturn (line : List Char) : List Char :=
  if line.getLast? = some '\r' then line.dropLast else line

/-- The lines of a text that has a line end behind it. -/
def lines (text : String) : List String :=
  (text.toList.splitOn '\n').map fun line => String.ofList (dropReturn line)

end AfuBench.Text
