namespace AfuBench

def decimal (n : Nat) : String :=
  String.ofList (Nat.toDigits 10 n)

def hex (n : Nat) : String :=
  String.ofList (Nat.toDigits 16 n)

def padLeft (width : Nat) (fill : Char) (s : String) : String :=
  String.ofList (s.toList.leftpad width fill)

def hexPadded (width n : Nat) : String :=
  padLeft width '0' (hex n)

def hexWord (w : UInt64) : String :=
  hex w.toNat

def hexWordFull (w : UInt64) : String :=
  hexPadded 16 w.toNat

def bitDigit (b : Bool) : String :=
  decimal b.toNat

theorem toList_decimal (n : Nat) : (decimal n).toList = Nat.toDigits 10 n := by
  simp [decimal]

theorem toList_hex (n : Nat) : (hex n).toList = Nat.toDigits 16 n := by
  simp [hex]

theorem toList_padLeft (width : Nat) (fill : Char) (s : String) :
    (padLeft width fill s).toList = s.toList.leftpad width fill := by
  simp [padLeft]

end AfuBench
