import AfuBench.Digits
import AfuBench.Text.Printable

namespace AfuBench.Text

def escape (c : Char) : String :=
  match c with
  | '\x00' => "\\0"
  | '\t' => "\\t"
  | '\n' => "\\n"
  | '\r' => "\\r"
  | '"' => "\\\""
  | '\\' => "\\\\"
  | c =>
    if Printable.byNumber c then "\\u\x7b" ++ hex c.toNat ++ "\x7d" else String.ofList [c]

def quoted (cs : List Char) : String :=
  "\"" ++ String.join (cs.map escape) ++ "\""

end AfuBench.Text
