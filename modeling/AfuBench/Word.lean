namespace AfuBench.Word

/-- Shift amounts count modulo 64, so the two shifts meet at every `n`. -/
def rotateLeft (w : UInt64) (n : Nat) : UInt64 :=
  w <<< UInt64.ofNat n ||| w >>> (64 - UInt64.ofNat n)

def bit (w : UInt64) (i : Nat) : Bool :=
  w.toBitVec.getLsbD i

def ofBit (b : Bool) (i : Nat) : UInt64 :=
  b.toUInt64 <<< UInt64.ofNat i

def lowLane (w : UInt64) : UInt32 :=
  w.toUInt32

def highLane (w : UInt64) : UInt32 :=
  (w >>> 32).toUInt32

def ofLanes (low high : UInt32) : UInt64 :=
  high.toUInt64 <<< 32 ||| low.toUInt64

/-- The 32-bit lanes of a list of words, the low half of each word before its high half. -/
def lanes (ws : List UInt64) : List UInt32 :=
  ws.flatMap fun w => [lowLane w, highLane w]

theorem bit_or (a b : UInt64) (i : Nat) : bit (a ||| b) i = (bit a i || bit b i) := by
  simp [bit]

theorem bit_and (a b : UInt64) (i : Nat) : bit (a &&& b) i = (bit a i && bit b i) := by
  simp [bit]

theorem bit_not (a : UInt64) {i : Nat} (hi : i < 64) : bit (~~~a) i = !bit a i := by
  simp [bit, hi]

theorem bit_zero (i : Nat) : bit 0 i = false := by
  simp [bit]

theorem bit_ofBit (b : Bool) {i : Nat} (hi : i < 64) (j : Nat) :
    bit (ofBit b i) j = (b && decide (i = j)) := by
  have hs : (UInt64.ofNat i).toBitVec.toNat % 64 = i := by
    simp; omega
  cases b
  · simp [bit, ofBit]
  · have h1 : (true.toUInt64).toBitVec = 1#64 := rfl
    simp only [bit, ofBit, UInt64.toBitVec_shiftLeft, h1, BitVec.shiftLeft_eq',
      BitVec.getLsbD_shiftLeft, BitVec.toNat_umod, BitVec.getLsbD_one]
    rw [show (64 : BitVec 64).toNat = 64 from rfl, hs]
    by_cases hj : i = j
    · subst hj; simp [hi]
    · simp [hj]; omega

theorem eq_of_bit {a b : UInt64} (h : ∀ i < 64, bit a i = bit b i) : a = b := by
  apply UInt64.toBitVec_inj.1
  ext i hi
  have := h i hi
  simpa [bit, BitVec.getLsbD_eq_getElem hi] using this

theorem lowLane_ofLanes (low high : UInt32) : lowLane (ofLanes low high) = low := by
  apply UInt32.toBitVec_inj.1
  ext i hi
  simp [lowLane, ofLanes]

theorem highLane_ofLanes (low high : UInt32) : highLane (ofLanes low high) = high := by
  apply UInt32.toBitVec_inj.1
  ext i hi
  have h1 : 32 + i < 64 := by omega
  have h2 : ¬ 32 + i < 32 := by omega
  simp [highLane, ofLanes, h1, h2, BitVec.getLsbD_eq_getElem hi]

theorem lanes_nil : lanes [] = [] := rfl

theorem lanes_cons (w : UInt64) (ws : List UInt64) :
    lanes (w :: ws) = lowLane w :: highLane w :: lanes ws := rfl

theorem length_lanes (ws : List UInt64) : (lanes ws).length = 2 * ws.length := by
  induction ws with
  | nil => rfl
  | cons w ws ih => simp [lanes_cons, ih]; omega

theorem toBitVec_rotateLeft (w : UInt64) (n : Nat) :
    (rotateLeft w n).toBitVec = w.toBitVec.rotateLeft n := by
  have hn : (UInt64.ofNat n).toBitVec % 64 = BitVec.ofNat 64 (n % 64) := by
    apply BitVec.eq_of_toNat_eq
    simp [BitVec.toNat_umod]
    omega
  have hm : (64 - UInt64.ofNat n).toBitVec % 64 = BitVec.ofNat 64 ((64 - n % 64) % 64) := by
    apply BitVec.eq_of_toNat_eq
    simp [BitVec.toNat_umod, BitVec.toNat_sub]
    omega
  ext i hi
  simp only [rotateLeft, UInt64.toBitVec_or, UInt64.toBitVec_shiftLeft,
    UInt64.toBitVec_shiftRight, hn, hm, BitVec.getElem_or, BitVec.getElem_rotateLeft]
  have h1 : (BitVec.ofNat 64 (n % 64)).toNat = n % 64 := by simp; omega
  have h2 : (BitVec.ofNat 64 ((64 - n % 64) % 64)).toNat = (64 - n % 64) % 64 := by simp; omega
  simp only [BitVec.shiftLeft_eq', BitVec.ushiftRight_eq', h1, h2, BitVec.getElem_shiftLeft,
    BitVec.getElem_ushiftRight]
  by_cases hlt : i < n % 64
  · have hk : (64 - n % 64) % 64 = 64 - n % 64 := by omega
    simp [hlt, hk]
    rw [BitVec.getLsbD_eq_getElem (by omega)]
  · rcases Nat.eq_zero_or_pos (n % 64) with hz | hp
    · simp [hz, BitVec.getLsbD_eq_getElem, hi]
    · have hk : (64 - n % 64) % 64 = 64 - n % 64 := by omega
      simp [hlt, hk]
      intro h
      have := BitVec.getLsbD_of_ge w.toBitVec (64 - n % 64 + i) (by omega)
      simp [this] at h

end AfuBench.Word
