import AfuBench.Files.Dump
import AfuBench.Proofs.LaneHash
import AfuBench.Proofs.VectorSequence
import AfuBench.Proofs.WordLanes
import Mathlib.Data.List.GetD

namespace AfuBench

namespace Blocks

variable {α : Type}

theorem getElem?_cut (size count : Nat) (xs : List α) {i : Nat} (hi : i < count) :
    (cut size count xs)[i]? = some ((xs.drop (size * i)).take size) := by
  induction count generalizing xs i with
  | zero => exact absurd hi (Nat.not_lt_zero i)
  | succ count ih =>
    rw [cut_succ]
    cases i with
    | zero => simp
    | succ i =>
      rw [List.getElem?_cons_succ, ih (xs.drop size) (by omega), List.drop_drop, Nat.mul_succ,
        Nat.add_comm size]

theorem length_of_mem_cut {size count : Nat} {xs block : List α} (hlen : size * count ≤ xs.length)
    (hb : block ∈ cut size count xs) : block.length = size := by
  obtain ⟨i, hi⟩ := List.mem_iff_getElem?.1 hb
  have hlt : i < count := by
    by_contra hge
    rw [List.getElem?_eq_none (by rw [length_cut]; omega)] at hi
    exact absurd hi (by simp)
  rw [getElem?_cut size count xs hlt, Option.some.injEq] at hi
  have hroom : size * i + size ≤ size * count := by
    rw [← Nat.mul_succ]
    exact Nat.mul_le_mul_left size hlt
  rw [← hi, List.length_take, List.length_drop]
  omega

theorem cut_flatten {size : Nat} {blocks : List (List α)}
    (hlen : ∀ b ∈ blocks, b.length = size) : cut size blocks.length blocks.flatten = blocks := by
  induction blocks with
  | nil => rfl
  | cons b blocks ih =>
    have hb := hlen b List.mem_cons_self
    rw [List.length_cons, cut_succ, List.flatten_cons, ← hb, List.take_left, List.drop_left, hb,
      ih fun c hc => hlen c (List.mem_cons_of_mem b hc)]

theorem whole_flatten {size : Nat} {blocks : List (List α)} (hsize : 0 < size)
    (hlen : ∀ b ∈ blocks, b.length = size) : whole size blocks.flatten = blocks := by
  rw [whole, length_flatten_of_forall hlen, Nat.mul_div_cancel_left _ hsize, cut_flatten hlen]

theorem flatten_whole {size : Nat} {xs : List α} (h : size ∣ xs.length) :
    (whole size xs).flatten = xs := by
  rw [whole, flatten_cut, Nat.mul_div_cancel' h, List.take_length]

theorem length_of_mem_whole {size : Nat} {xs block : List α} (h : block ∈ whole size xs) :
    block.length = size :=
  length_of_mem_cut (Nat.mul_div_le _ size) h

end Blocks

namespace Dump

theorem getLsbD_bytesWord (bs : List UInt8) {i : Nat} (hi : i < 64) :
    (bytesWord bs).toBitVec.getLsbD i = (bs.getD (i / 8) 0).toBitVec.getLsbD (i % 8) := by
  induction bs generalizing i with
  | nil => simp [bytesWord]
  | cons b bs ih =>
    have hshift : ((8 : UInt64).toBitVec % 64).toNat = 8 := by decide
    have hcons : bytesWord (b :: bs) = bytesWord bs <<< 8 ||| b.toUInt64 := rfl
    rw [hcons, UInt64.toBitVec_or, UInt64.toBitVec_shiftLeft, BitVec.getLsbD_or,
      BitVec.shiftLeft_eq', hshift, BitVec.getLsbD_shiftLeft, UInt8.toBitVec_toUInt64,
      BitVec.getLsbD_setWidth, decide_eq_true hi]
    by_cases hlow : i < 8
    · have hdiv : i / 8 = 0 := Nat.div_eq_of_lt hlow
      simp [hlow, hdiv, Nat.mod_eq_of_lt hlow]
    · have hdiv : i / 8 = (i - 8) / 8 + 1 := by omega
      have hmod : i % 8 = (i - 8) % 8 := by omega
      rw [ih (by omega), hdiv, hmod, BitVec.getLsbD_of_ge b.toBitVec i (by omega)]
      simp [hlow]

theorem getLsbD_wordBytes (w : UInt64) {k i : Nat} (hk : k < 8) (hi : i < 8) :
    ((wordBytes w).getD k 0).toBitVec.getLsbD i = w.toBitVec.getLsbD (8 * k + i) := by
  have hshift : ((UInt64.ofNat (8 * k)).toBitVec % 64).toNat = 8 * k := by
    simp
    omega
  rw [List.getD_eq_getElem?_getD, wordBytes, List.getElem?_map, List.getElem?_range hk,
    Option.map_some, Option.getD_some, UInt64.toBitVec_toUInt8, UInt64.toBitVec_shiftRight,
    BitVec.getLsbD_setWidth, BitVec.ushiftRight_eq', hshift, BitVec.getLsbD_ushiftRight,
    decide_eq_true hi, Bool.true_and]

theorem bytesWord_wordBytes (w : UInt64) : bytesWord (wordBytes w) = w := by
  apply UInt64.toBitVec_inj.1
  apply BitVec.eq_of_getLsbD_eq
  intro i hi
  rw [getLsbD_bytesWord _ hi, getLsbD_wordBytes w (by omega) (Nat.mod_lt i (by omega)),
    Nat.div_add_mod]

theorem length_encodeWords (ws : List UInt64) : (encodeWords ws).length = 8 * ws.length := by
  induction ws with
  | nil => rfl
  | cons w ws ih =>
    rw [encodeWords, List.flatMap_cons, List.length_append, length_wordBytes, List.length_cons]
    rw [encodeWords] at ih
    omega

theorem decodeWords_encodeWords (ws : List UInt64) : decodeWords (encodeWords ws) = ws := by
  have hbytes : ∀ b ∈ ws.map wordBytes, b.length = 8 := by
    intro b hb
    obtain ⟨w, _, rfl⟩ := List.mem_map.1 hb
    exact length_wordBytes w
  rw [decodeWords, encodeWords, List.flatMap_def, Blocks.whole_flatten (by decide) hbytes,
    List.map_map]
  exact List.map_id'' bytesWord_wordBytes ws

theorem length_decodeWords (bs : List UInt8) : (decodeWords bs).length = bs.length / 8 := by
  rw [decodeWords, List.length_map, Blocks.whole, Blocks.length_cut]

theorem length_decode (words : Nat) (bs : List UInt8) :
    (decode words bs).length = bs.length / 8 / words := by
  rw [decode, Blocks.whole, Blocks.length_cut, length_decodeWords]

theorem length_of_mem_decode {words : Nat} {bs : List UInt8} {v : List UInt64}
    (hv : v ∈ decode words bs) : v.length = words :=
  Blocks.length_of_mem_whole hv

theorem flatten_decode {words count : Nat} {bs : List UInt8}
    (hlen : bs.length = 8 * words * count) : (decode words bs).flatten = decodeWords bs := by
  apply Blocks.flatten_whole
  rw [length_decodeWords, hlen, Nat.mul_assoc, Nat.mul_div_cancel_left _ (by omega)]
  exact Nat.dvd_mul_right words count

theorem decode_encode_eq_whole (words : Nat) (vs : List (List UInt64)) :
    decode words (encode vs) = Blocks.whole words vs.flatten := by
  rw [decode, encode, decodeWords_encodeWords]

def bytesLane (bs : List UInt8) : UInt32 :=
  Word.lowLane (bytesWord bs)

theorem getLsbD_bytesLane (bs : List UInt8) {i : Nat} (hi : i < 32) :
    (bytesLane bs).toBitVec.getLsbD i = (bs.getD (i / 8) 0).toBitVec.getLsbD (i % 8) := by
  rw [bytesLane, Word.getLsbD_lowLane _ hi, getLsbD_bytesWord bs (by omega)]

theorem bytesLane_injective {as bs : List UInt8} (ha : as.length = 4) (hb : bs.length = 4)
    (h : bytesLane as = bytesLane bs) : as = bs := by
  apply List.ext_getElem (ha.trans hb.symm)
  intro k hka hkb
  apply UInt8.toBitVec_inj.1
  apply BitVec.eq_of_getLsbD_eq
  intro i hi
  have hdiv : (8 * k + i) / 8 = k := by omega
  have hmod : (8 * k + i) % 8 = i := by omega
  have hbit : (bytesLane as).toBitVec.getLsbD (8 * k + i) =
      (bytesLane bs).toBitVec.getLsbD (8 * k + i) := by rw [h]
  rw [getLsbD_bytesLane as (by omega), getLsbD_bytesLane bs (by omega), hdiv, hmod,
    List.getD_eq_getElem _ _ hka, List.getD_eq_getElem _ _ hkb] at hbit
  exact hbit

theorem lanes_bytesWord {low high : List UInt8} (hlow : low.length = 4) :
    Word.lanes [bytesWord (low ++ high)] = [bytesLane low, bytesLane high] := by
  have hl : Word.lowLane (bytesWord (low ++ high)) = bytesLane low := by
    apply UInt32.toBitVec_inj.1
    apply BitVec.eq_of_getLsbD_eq
    intro i hi
    rw [Word.getLsbD_lowLane _ hi, getLsbD_bytesWord _ (by omega), getLsbD_bytesLane _ hi,
      List.getD_append _ _ _ _ (by omega)]
  have hh : Word.highLane (bytesWord (low ++ high)) = bytesLane high := by
    apply UInt32.toBitVec_inj.1
    apply BitVec.eq_of_getLsbD_eq
    intro i hi
    rw [Word.getLsbD_highLane _ hi, getLsbD_bytesWord _ (by omega), getLsbD_bytesLane _ hi,
      List.getD_append_right _ _ _ _ (by omega), hlow,
      show (32 + i) / 8 - 4 = i / 8 by omega, show (32 + i) % 8 = i % 8 by omega]
  rw [Word.lanes_cons, Word.lanes_nil, hl, hh]

theorem lanes_decodeWords {count : Nat} {bs : List UInt8} (hlen : bs.length = 8 * count) :
    Word.lanes (decodeWords bs) = (Blocks.cut 4 (2 * count) bs).map bytesLane := by
  have hwhole : decodeWords bs = (Blocks.cut 8 count bs).map bytesWord := by
    rw [decodeWords, Blocks.whole, hlen, Nat.mul_div_cancel_left count (by omega)]
  rw [hwhole]
  clear hwhole
  induction count generalizing bs with
  | zero => rfl
  | succ count ih =>
    have hgroups : bs.take 8 = bs.take 4 ++ (bs.drop 4).take 4 := by
      rw [← List.take_add]
    have hrest : (bs.drop 8).length = 8 * count := by
      rw [List.length_drop]
      omega
    have hfour : (bs.take 4).length = 4 := by
      rw [List.length_take]
      omega
    rw [Nat.mul_succ, Blocks.cut_succ, Blocks.cut_succ, Blocks.cut_succ, List.drop_drop,
      List.map_cons, List.map_cons, List.map_cons, ← ih hrest, hgroups,
      ← List.singleton_append, Word.lanes_append, lanes_bytesWord hfour]
    rfl

end Dump

end AfuBench
