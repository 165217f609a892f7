/-!
# Lines

A line ends at a line feed. One carriage return right before that line feed belongs to the line's
end; any other carriage return belongs to the line. What follows the last line feed is a line
unless it is empty.
-/

namespace DemoScaffold.Text

/-- The lines of a text, without their ends. -/
def lines : List Char → List (List Char)
  | [] => []
  | c :: rest =>
    if c = '\n' then [] :: lines rest
    else if c = '\r' ∧ rest.head? = some '\n' then lines rest
    else
      match lines rest with
      | [] => [[c]]
      | line :: more => (c :: line) :: more

/-- The text that writes each line followed by a line feed. -/
def unlines (ls : List (List Char)) : List Char :=
  ls.flatMap (· ++ ['\n'])

end DemoScaffold.Text
