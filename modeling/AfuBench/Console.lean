namespace AfuBench

structure Console where
  ended : Array String
  pending : String
  deriving DecidableEq, Repr

namespace Console

def empty : Console :=
  ⟨#[], ""⟩

def print (c : Console) (text : String) : Console :=
  { c with pending := c.pending ++ text }

def printLine (c : Console) (text : String) : Console :=
  ⟨c.ended.push (c.pending ++ text), ""⟩

def lines (c : Console) : List String :=
  if c.pending.isEmpty then c.ended.toList else c.ended.toList ++ [c.pending]

end Console

end AfuBench
