import AfuBench.Proofs.BufferLines
import AfuBench.Proofs.ToolSteps

namespace AfuBench

namespace Line

def sampleAt (buf : List UInt64) (i : Nat) : UInt32 :=
  UInt32.ofNat ((buf.getD (8 * i + 7) 0).toNat / 0x1000000000000 * 0x10000 +
    (buf.getD (8 * i) 0).toNat % 0x10000)

def hashOf (buf : List UInt64) (lines : Nat) : UInt32 :=
  RollingHash.fold RollingHash.initial ((List.range lines).map (sampleAt buf))

variable {buf : List UInt64}

theorem toNat_highHalf (w : UInt64) :
    ((w >>> 48).toUInt32 <<< 16).toNat = (w.toNat / 0x1000000000000) <<< 16 := by
  have hw := w.toNat_lt
  have hhigh : (w >>> 48).toUInt32.toNat = w.toNat / 0x1000000000000 := by
    have hshift : (w >>> 48).toNat = w.toNat >>> 48 := UInt64.toNat_shiftRight w 48
    rw [UInt64.toNat_toUInt32, hshift, Nat.shiftRight_eq_div_pow]
    omega
  have hshift : ((w >>> 48).toUInt32 <<< 16).toNat =
      (w >>> 48).toUInt32.toNat <<< 16 % 2 ^ 32 := UInt32.toNat_shiftLeft _ 16
  rw [hshift, hhigh, Nat.shiftLeft_eq]
  omega

theorem toNat_lowHalf (w : UInt64) : (w &&& 0xffff).toUInt32.toNat = w.toNat % 0x10000 := by
  have hmask : (w &&& 0xffff).toNat = w.toNat &&& (2 ^ 16 - 1) := UInt64.toNat_and w 0xffff
  rw [UInt64.toNat_toUInt32, hmask, Nat.and_two_pow_sub_one_eq_mod]
  omega

theorem sample_lineAt (buf : List UInt64) (i : Nat) : sample (lineAt buf i) = sampleAt buf i := by
  have hlow : (buf.getD (8 * i) 0).toNat % 0x10000 < 2 ^ 16 := Nat.mod_lt _ (by decide)
  have hlast := (buf.getD (8 * i + 7) 0).toNat_lt
  rw [sample, first_lineAt, last_lineAt, sampleAt, ← UInt32.toNat_inj, UInt32.toNat_or,
    toNat_highHalf, toNat_lowHalf, ← Nat.shiftLeft_add_eq_or_of_lt hlow, Nat.shiftLeft_eq,
    UInt32.toNat_ofNat']
  omega

theorem readHash_eq_ok (hbuf : buf.length < maxWords) {bursts size : Nat}
    (h : 8 * (bursts * size) ≤ buf.length) :
    readHash buf bursts size = .ok (hashOf buf (bursts * size)) := by
  have hsamples : sample ∘ lineAt buf = sampleAt buf := funext (sample_lineAt buf)
  rw [readHash, map_require_eq_ok hbuf h, whole_take h, List.map_map, hsamples, hashOf]

theorem readHash_eq_error_iff (hbuf : buf.length < maxWords) (bursts size : Nat) (e : DataError) :
    readHash buf bursts size = .error e ↔ buf.length < 8 * (bursts * size) ∧
      e = .shortBuffer (if 8 * (bursts * size) ≤ maxWords then 8 * (bursts * size) else maxWords)
        buf.length :=
  map_require_eq_error_iff hbuf _ e

theorem sample?_of_mem {lines : Nat} (h : 8 * lines ≤ buf.length) :
    ∀ line ∈ Blocks.whole words (buf.take (8 * lines)), sample? line = .ok (sample line) := by
  intro line hline
  rw [whole_take h] at hline
  obtain ⟨i, hi, rfl⟩ := List.mem_map.1 hline
  have hlt := List.mem_range.1 hi
  have hlen : (lineAt buf i).length = 8 := length_lineAt (by omega)
  rw [sample?, if_neg (by omega), if_neg (by rw [hlen]; decide)]

theorem hashOf_congr {other : List UInt64} {lines : Nat}
    (hsame : ∀ i, i < lines → sampleAt other i = sampleAt buf i) :
    hashOf other lines = hashOf buf lines := by
  rw [hashOf, hashOf, List.map_congr_left fun i hi => hsame i (List.mem_range.1 hi)]

theorem hashOf_ne {other : List UInt64} {lines i : Nat} (hi : i < lines)
    (hne : sampleAt other i ≠ sampleAt buf i)
    (hsame : ∀ j, j < lines → j ≠ i → sampleAt other j = sampleAt buf j) :
    hashOf other lines ≠ hashOf buf lines :=
  RollingHash.fold_ne (.map_range hi hne hsame)

end Line

namespace Tool

theorem run_lineHash_zero (path : String) (w : Workspace) :
    (lineHash path 0).run.run w = (.error .emptyBurst, w) := by
  rfl

theorem run_loadWords {path : String} {bytes : Nat} {w : Workspace} {held : List (List UInt64)}
    (hheld : loaded w.files path bytes = .ok held) :
    (loadWords path bytes).run.run w = (.ok held.flatten, w) := by
  have hrun := run_loadDump path bytes w
  rw [hheld] at hrun
  rw [loadWords, map_eq_pure_bind, run_bind, hrun]
  rfl

theorem run_lineHash {path : String} {size lines : Nat} {content : List UInt8} {w : Workspace}
    (hread : w.files.read path = .ok content) (hlen : content.length = 64 * lines)
    (hfits : 8 * lines < Line.maxWords) (hsize : 0 < size) :
    (lineHash path size).run.run w =
      (.ok (Line.hashOf (Dump.decodeWords content) (lines / size * size)),
        { w with
          console := w.console.printLine (decimal (lines / size) ++ " bursts of " ++ decimal size ++
            " lines: read hash 0x" ++ hexPadded 8
              (Line.hashOf (Dump.decodeWords content) (lines / size * size)).toNat) }) := by
  have hwords : wordCount 64 = .ok 8 := rfl
  have hheld : loaded w.files path 64 = .ok (Dump.decode 8 content) :=
    loaded_eq_ok_iff.2 ⟨8, content, hwords, hread, by rw [hlen, Nat.mul_mod_right], rfl⟩
  have hflat : (Dump.decode 8 content).flatten = Dump.decodeWords content :=
    Dump.flatten_decode hlen
  have hcount : (Dump.decodeWords content).length = 8 * lines := by
    rw [Dump.length_decodeWords]
    omega
  have hlines : (Dump.decodeWords content).length / Line.words = lines := by
    rw [hcount, Line.words, Nat.mul_div_cancel_left lines (by decide)]
  have hbuf : (Dump.decodeWords content).length < Line.maxWords := by
    rw [hcount]
    exact hfits
  have hroom : 8 * (lines / size * size) ≤ (Dump.decodeWords content).length := by
    rw [hcount]
    exact Nat.mul_le_mul_left 8 (Nat.div_mul_le_self lines size)
  rw [lineHash, if_neg (by omega)]
  simp only [run_bind, run_loadWords hheld, hflat, hlines, Line.readHash_eq_ok hbuf hroom,
    run_orFail_ok, run_printLine]
  rfl

/-- The read hash fails only for want of words; otherwise it is the hash of one sample a line, so it
depends on the number of lines and on their samples alone, and sees every change of a single sample.
The tool finds it for the lines in whole bursts of a dump, and refuses bursts without lines. -/
theorem lineHash_report :
    (∀ (buf : List UInt64) (bursts size : Nat), buf.length < Line.maxWords →
      (∀ e, Line.readHash buf bursts size = .error e ↔ buf.length < 8 * (bursts * size) ∧
        e = .shortBuffer
          (if 8 * (bursts * size) ≤ Line.maxWords then 8 * (bursts * size) else Line.maxWords)
          buf.length) ∧
      (8 * (bursts * size) ≤ buf.length →
        Line.readHash buf bursts size = .ok (Line.hashOf buf (bursts * size)) ∧
        (∀ line ∈ Blocks.whole Line.words (buf.take (8 * (bursts * size))),
          Line.sample? line = .ok (Line.sample line)) ∧
        ∀ (other : List UInt64) (bursts' size' : Nat), other.length < Line.maxWords →
          bursts' * size' = bursts * size → 8 * (bursts * size) ≤ other.length →
          ((∀ i, i < bursts * size → Line.sampleAt other i = Line.sampleAt buf i) →
            Line.readHash other bursts' size' = Line.readHash buf bursts size) ∧
          ∀ i, i < bursts * size → Line.sampleAt other i ≠ Line.sampleAt buf i →
            (∀ j, j < bursts * size → j ≠ i → Line.sampleAt other j = Line.sampleAt buf j) →
            Line.readHash other bursts' size' ≠ Line.readHash buf bursts size)) ∧
    ∀ (path : String) (w : Workspace),
      (∀ content lines size, w.files.read path = .ok content → content.length = 64 * lines →
        8 * lines < Line.maxWords → 1 ≤ size →
        ∃ hash, hash = Line.hashOf (Dump.decodeWords content) (lines / size * size) ∧
          (lineHash path size).run.run w =
            (.ok hash,
              { w with
                console := w.console.printLine (decimal (lines / size) ++ " bursts of " ++
                  decimal size ++ " lines: read hash 0x" ++ hexPadded 8 hash.toNat) })) ∧
      (lineHash path 0).run.run w = (.error .emptyBurst, w) := by
  refine ⟨?_, ?_⟩
  · intro buf bursts size hbuf
    refine ⟨Line.readHash_eq_error_iff hbuf bursts size, fun hlen => ?_⟩
    have hhash := Line.readHash_eq_ok hbuf hlen
    refine ⟨hhash, Line.sample?_of_mem hlen, ?_⟩
    intro other bursts' size' hother hproduct hlen'
    have hhash' := Line.readHash_eq_ok hother (hproduct ▸ hlen')
    rw [hhash, hhash', hproduct]
    refine ⟨?_, ?_⟩
    · intro hsame
      rw [Line.hashOf_congr hsame]
    · intro i hi hne hsame heq
      exact Line.hashOf_ne hi hne hsame (Except.ok.inj heq)
  · intro path w
    refine ⟨?_, run_lineHash_zero path w⟩
    intro content lines size hread hlen hfits hsize
    exact ⟨_, rfl, run_lineHash hread hlen hfits hsize⟩

/-- Three lines, of which bursts of two lines leave one out. -/
def threeLines : List UInt8 :=
  (List.range 192).map UInt8.ofNat

theorem lineHash_report_three_lines :
    Line.readHash (Dump.decodeWords threeLines) 3 1 =
        .ok (RollingHash.fold RollingHash.initial [0x3f3e0100, 0x7f7e4140, 0xbfbe8180]) ∧
      Line.readHash (Dump.decodeWords threeLines) 2 2 = .error (.shortBuffer 32 24) ∧
      Line.readHash (Dump.decodeWords threeLines) (UInt64.size - 1) 2 =
        .error (.shortBuffer (UInt64.size - 1) 24) ∧
      Line.readHash (Dump.decodeWords threeLines) 0 (UInt64.size - 1) = .ok RollingHash.initial ∧
      ((lineHash "d" 2).exec ⟨[], [([['d']], threeLines)]⟩).1 =
        .ok (RollingHash.fold RollingHash.initial [0x3f3e0100, 0x7f7e4140]) := by
  obtain ⟨hbuffers, hdumps⟩ := lineHash_report
  have hlen : threeLines.length = 64 * 3 := by rw [threeLines, List.length_map, List.length_range]
  have hwords : (Dump.decodeWords threeLines).length = 24 := by rw [Dump.length_decodeWords, hlen]
  have hbuf : (Dump.decodeWords threeLines).length < Line.maxWords := by
    rw [hwords]
    decide
  have hthree : (List.range 3).map (Line.sampleAt (Dump.decodeWords threeLines)) =
      [0x3f3e0100, 0x7f7e4140, 0xbfbe8180] := by decide +kernel
  have htwo : (List.range 2).map (Line.sampleAt (Dump.decodeWords threeLines)) =
      [0x3f3e0100, 0x7f7e4140] := by decide +kernel
  obtain ⟨_, hall⟩ := hbuffers _ 3 1 hbuf
  obtain ⟨hshort, _⟩ := hbuffers _ 2 2 hbuf
  obtain ⟨hhuge, _⟩ := hbuffers _ (UInt64.size - 1) 2 hbuf
  obtain ⟨_, hnone⟩ := hbuffers _ 0 (UInt64.size - 1) hbuf
  obtain ⟨hdump, _⟩ := hdumps "d" ⟨⟨[], [([['d']], threeLines)]⟩, .empty⟩
  obtain ⟨hash, hhash, hrun⟩ := hdump threeLines 3 2 rfl hlen (by decide) (by decide)
  refine ⟨?_, ?_, ?_, ?_, ?_⟩
  · rw [(hall (Nat.le_of_eq hwords.symm)).1, Line.hashOf, hthree]
  · exact (hshort _).2 ⟨by rw [hwords]; decide, by rw [hwords]; decide⟩
  · exact (hhuge _).2 ⟨by rw [hwords]; decide, by rw [hwords]; decide⟩
  · rw [(hnone (by rw [hwords, Nat.zero_mul]; decide)).1, Nat.zero_mul]
    rfl
  · rw [exec, hrun, hhash, Line.hashOf, htwo]

end Tool

end AfuBench
