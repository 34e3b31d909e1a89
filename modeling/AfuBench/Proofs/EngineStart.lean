import AfuBench.Proofs.Slots

namespace AfuBench.Engine

def writtenMemory (words : Nat) (e : Engine) : List (List UInt64) :=
  if e.writing.enabled then e.writtenLines words ++ e.memory.drop e.writing.lines else e.memory

def usedMemory (words : Nat) (e : Engine) : List (List UInt64) :=
  if e.reading.enabled then grown words e.reading.lines (e.writtenMemory words)
  else e.writtenMemory words

def foundHash (words : Nat) (e : Engine) : UInt64 :=
  if e.reading.enabled then
    streamHash words ({ e with memory := e.writtenMemory words }.firstLines words e.reading.lines)
  else e.readHash

theorem writeRun_eq (words : Nat) (e : Engine) :
    e.writeRun words =
      { e with
        memory := e.writtenMemory words
        writeLines := if e.writing.enabled then e.writing.lines else e.writeLines } := by
  rw [writeRun, writtenMemory]
  split <;> rfl

theorem readRun_eq (words : Nat) (e : Engine) :
    e.readRun words =
      { e with
        memory := if e.reading.enabled then grown words e.reading.lines e.memory else e.memory
        readHash :=
          if e.reading.enabled then streamHash words (e.firstLines words e.reading.lines)
          else e.readHash
        readBursts := if e.reading.enabled then e.reading.count else e.readBursts
        readLines := if e.reading.enabled then e.reading.lines else e.readLines } := by
  rw [readRun]
  split <;> rfl

theorem start_finite {config : AfuConfig} (hv : config.Valid) {e : Engine}
    (hfinite : e.unlimited = false) :
    (e.start config).1 =
      { e with
        started := true
        busy := config.busyPolls
        memory := e.usedMemory config.lineWords
        readHash := e.foundHash config.lineWords
        readBursts := if e.reading.enabled then e.reading.count else 0
        readLines := e.reading.lines
        writeLines := e.writing.lines } := by
  have hbegin : e.begin.unlimited = false := hfinite
  have hoff : ∀ b : Burst, b.lines = if b.enabled then b.lines else 0 := by
    intro b
    rw [Burst.lines]
    split <;> rfl
  rw [start]
  simp only [hbegin, Bool.false_eq_true, if_false, AfuConfig.wordCount_of_valid hv]
  rw [hoff e.reading, hoff e.writing]
  by_cases hmoves : e.begin.reading.enabled ∨ e.begin.writing.enabled
  · rw [if_pos hmoves, finiteRun, readRun_eq, writeRun_eq]
    rfl
  · rw [if_neg hmoves]
    rw [not_or] at hmoves
    have hread : ¬ e.reading.enabled = true := hmoves.1
    have hwrite : ¬ e.writing.enabled = true := hmoves.2
    rw [foundHash, usedMemory, writtenMemory, if_neg hread, if_neg hread, if_neg hread,
      if_neg hread, if_neg hwrite, if_neg hwrite]
    rfl

theorem start_unlimited {config : AfuConfig} {e : Engine} (hendless : e.unlimited = true) :
    (e.start config).1 =
      { e with
        started := true
        streaming := true
        readBursts := e.reading.enabled.toNat
        readLines := e.reading.burstLines
        writeLines := e.writing.burstLines } := by
  have hbegin : e.begin.unlimited = true := hendless
  rw [start]
  simp only [hbegin, if_true]
  simp only [stream, begin, Nat.zero_add]
  rfl

end AfuBench.Engine
