/-!
# Text — Quoted

Text between quotes of one kind. A quote inside the text is written twice and no other character
has a meaning of its own, so the text can be read back (`Quoted.read`).
-/

namespace DataAgent.Quoted

/-- The inside of a quoted text: each quote is doubled. -/
def double (quote : Char) : List Char → List Char
  | [] => []
  | c :: rest => if c = quote then quote :: quote :: double quote rest else c :: double quote rest

/-- A text in quotes. -/
def write (quote : Char) (text : List Char) : List Char := quote :: double quote text ++ [quote]

/-- The text up to its closing quote, and what follows; the opening quote has been read. -/
def read (quote : Char) : List Char → Option (List Char × List Char)
  | [] => none
  | [c] => if c = quote then some ([], []) else none
  | c :: d :: rest =>
    if c = quote then
      if d = quote then (read quote rest).map fun (text, after) => (quote :: text, after)
      else some ([], d :: rest)
    else (read quote (d :: rest)).map fun (text, after) => (c :: text, after)

end DataAgent.Quoted
