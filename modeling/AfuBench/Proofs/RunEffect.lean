import AfuBench.Proofs.EngineMemory
import AfuBench.Proofs.Polling
import AfuBench.Proofs.SweepPoints
import AfuBench.Proofs.WordLanes

namespace AfuBench

namespace Engine

def aimed (eng : Nat) (point : SweepPoint) (mode : Mode) (e : Engine) : Engine :=
  { e with
    readWord := Burst.toWord ⟨mode.reads, point.count, point.size⟩
    writeWord := Burst.toWord ⟨mode.writes, point.count, point.size⟩
    seed := engineSeed eng }

def afterRun (config : AfuConfig) (eng : Nat) (point : SweepPoint) (mode : Mode) (e : Engine) :
    Engine :=
  { ((e.aimed eng point mode).start config).1 with busy := 0 }

def laid (config : AfuConfig) (eng : Nat) (corrupt : Bool) (count : Nat) : List (List UInt64) :=
  if corrupt then flipFirst (config.region eng count) else config.region eng count

variable {config : AfuConfig} {eng : Nat} {point : SweepPoint} {mode : Mode}

theorem reading_aimed (h : point.Fits config eng) (mode : Mode) (e : Engine) :
    (e.aimed eng point mode).reading = ⟨mode.reads, point.count, point.size⟩ :=
  Burst.ofWord_toWord h.count_lt h.size_lt

theorem writing_aimed (h : point.Fits config eng) (mode : Mode) (e : Engine) :
    (e.aimed eng point mode).writing = ⟨mode.writes, point.count, point.size⟩ :=
  Burst.ofWord_toWord h.count_lt h.size_lt

theorem unlimited_aimed (h : point.Fits config eng) (mode : Mode) (e : Engine) :
    (e.aimed eng point mode).unlimited = false := by
  have hcount : (point.count == 0) = false := by
    have := h.count_pos
    simp
    omega
  rw [unlimited, reading_aimed h, writing_aimed h, Burst.unlimited, Burst.unlimited, hcount]
  simp

theorem start_aimed (hv : config.Valid) (h : point.Fits config eng) (mode : Mode) (e : Engine) :
    ((e.aimed eng point mode).start config).1 =
      { e.aimed eng point mode with
        started := true
        busy := config.busyPolls
        memory := (e.aimed eng point mode).usedMemory config.lineWords
        readHash := (e.aimed eng point mode).foundHash config.lineWords
        readBursts := if mode.reads then point.count else 0
        readLines := if mode.reads then point.count * point.size else 0
        writeLines := if mode.writes then point.count * point.size else 0 } := by
  rw [start_finite hv (unlimited_aimed h mode e), reading_aimed h, writing_aimed h, Burst.lines,
    Burst.lines]

theorem streaming_afterRun (hv : config.Valid) (h : point.Fits config eng) (mode : Mode)
    (e : Engine) : (e.afterRun config eng point mode).streaming = e.streaming := by
  rw [afterRun, start_aimed hv h]
  rfl

theorem stalled_afterRun (hv : config.Valid) (h : point.Fits config eng) (mode : Mode)
    (e : Engine) : (e.afterRun config eng point mode).stalled = e.stalled := by
  rw [afterRun, start_aimed hv h]
  rfl

theorem corrupt_afterRun (hv : config.Valid) (h : point.Fits config eng) (mode : Mode)
    (e : Engine) : (e.afterRun config eng point mode).corrupt = e.corrupt := by
  rw [afterRun, start_aimed hv h]
  rfl

theorem firstLines_congr {words count : Nat} {e f : Engine}
    (h : ∀ i, e.memory.getD i (List.replicate words 0) = f.memory.getD i (List.replicate words 0)) :
    e.firstLines words count = f.firstLines words count := by
  simp only [firstLines_eq_map, h]

theorem firstLines_afterRun (hv : config.Valid) (h : point.Fits config eng) (mode : Mode)
    (e : Engine) (count : Nat) :
    (e.afterRun config eng point mode).firstLines config.lineWords count =
      { e.aimed eng point mode with
        memory := (e.aimed eng point mode).writtenMemory config.lineWords }.firstLines
          config.lineWords count := by
  apply firstLines_congr
  intro i
  rw [afterRun, start_aimed hv h]
  exact getD_usedMemory config.lineWords _ i

theorem firstLines_append {words count : Nat} {e : Engine} {front rest : List (List UInt64)}
    (hmemory : e.memory = front ++ rest) (hfront : front.length = count) :
    e.firstLines words count = front := by
  have hnone : count - (front.length + rest.length) = 0 := by omega
  rw [firstLines, hmemory, List.take_append_of_le_length (Nat.le_of_eq hfront.symm),
    List.take_of_length_le (Nat.le_of_eq hfront), List.length_append, hnone, List.replicate_zero,
    List.append_nil]

theorem readHash_afterRun (hv : config.Valid) (h : point.Fits config eng)
    (hreads : mode.reads = true) (e : Engine) :
    (e.afterRun config eng point mode).readHash =
      streamHash config.lineWords
        ((e.afterRun config eng point mode).firstLines config.lineWords
          (point.count * point.size)) := by
  rw [firstLines_afterRun hv h, afterRun, start_aimed hv h]
  simp only [foundHash, reading_aimed h, hreads, if_true, Burst.lines]

theorem firstLines_afterRun_of_writes (hv : config.Valid) (h : point.Fits config eng)
    (hwrites : mode.writes = true) (e : Engine) :
    (e.afterRun config eng point mode).firstLines config.lineWords (point.count * point.size) =
      laid config eng e.corrupt (point.count * point.size) := by
  have hlines : (e.aimed eng point mode).writing.lines = point.count * point.size := by
    rw [writing_aimed h, Burst.lines, if_pos hwrites]
  have hwritten : (e.aimed eng point mode).writtenLines config.lineWords =
      laid config eng e.corrupt (point.count * point.size) := by
    rw [writtenLines, hlines]
    rfl
  have hlength := length_writtenLines config.lineWords (e.aimed eng point mode)
  rw [hlines, hwritten] at hlength
  have hmemory : (e.aimed eng point mode).writtenMemory config.lineWords =
      laid config eng e.corrupt (point.count * point.size) ++
        e.memory.drop (point.count * point.size) := by
    rw [writtenMemory, if_pos (by rw [writing_aimed h]; exact hwrites), hwritten, hlines]
    rfl
  rw [firstLines_afterRun hv h]
  exact firstLines_append hmemory hlength

theorem firstLines_afterRun_of_not_writes (hv : config.Valid) (h : point.Fits config eng)
    (hwrites : mode.writes = false) (count : Nat) (e : Engine) :
    (e.afterRun config eng point mode).firstLines config.lineWords count =
      e.firstLines config.lineWords count := by
  rw [firstLines_afterRun hv h, writtenMemory, writing_aimed h, if_neg (by simp [hwrites])]
  rfl

end Engine

namespace Engine

theorem differsAt_flipFirst {words : Nat} (hwords : 0 < words) {lines : List (List UInt64)}
    (hlines : lines ≠ []) (hlen : ∀ v ∈ lines, v.length = words) :
    DiffersAt 0 (Word.lanes (flipFirst lines).flatten) (Word.lanes lines.flatten) ∧
      (∀ v ∈ flipFirst lines, v.length = words) ∧ (flipFirst lines).length = lines.length := by
  obtain ⟨line, lines, rfl⟩ := List.exists_cons_of_ne_nil hlines
  have hline : line.length = words := hlen line List.mem_cons_self
  have hword : line ≠ [] := List.ne_nil_of_length_pos (by omega)
  obtain ⟨w, ws, rfl⟩ := List.exists_cons_of_ne_nil hword
  refine ⟨?_, ?_, rfl⟩
  · have hlanes (v : UInt64) : Word.lanes ((v :: ws) :: lines).flatten =
        [] ++ Word.lowLane v :: Word.highLane v :: Word.lanes (ws ++ lines.flatten) := rfl
    have hhigh : Word.highLane (w ^^^ 1) = Word.highLane w := by
      rw [Word.highLane_xor, show Word.highLane 1 = 0 from rfl, UInt32.xor_zero]
    have hlow : Word.lowLane (w ^^^ 1) ≠ Word.lowLane w := by
      rw [Word.lowLane_xor, ne_eq, Word.xor_eq_left_iff]
      decide
    rw [flipFirst, hlanes, hlanes, hhigh]
    exact DiffersAt.of_split [] _ hlow
  · intro v hv
    rw [flipFirst] at hv
    rcases List.mem_cons.1 hv with rfl | hrest
    · exact hline
    · exact hlen v (List.mem_cons_of_mem _ hrest)

variable {config : AfuConfig} {eng count : Nat}

theorem streamHash_laid_eq_iff (hv : config.Valid) (hcount : 0 < count) {corrupt : Bool} :
    streamHash config.lineWords (laid config eng corrupt count) =
      streamHash config.lineWords (config.region eng count) ↔ corrupt = false := by
  have hregion : (config.region eng count).length = count := length_vectors _ _ _
  have hlen : ∀ v ∈ config.region eng count, v.length = config.lineWords :=
    fun _ => length_of_mem_vectors
  constructor
  · intro heq
    cases corrupt with
    | false => rfl
    | true =>
      obtain ⟨hdiffers, hwidth, hsame⟩ := differsAt_flipFirst (AfuConfig.lineWords_pos hv)
        (List.ne_nil_of_length_pos (by omega)) hlen
      exact absurd heq (streamHash_ne hwidth hlen hsame (AfuConfig.lineWords_pos hv) hdiffers)
  · rintro rfl
    rfl

end Engine

end AfuBench
