import AfuBench.Proofs.LineGrammar
import Mathlib.Data.List.Forall2
import Mathlib.Logic.Relation

namespace AfuBench

def GoldenRecord.movedBy (k : Nat) (r : GoldenRecord) : GoldenRecord :=
  { r with line := r.line + k }

namespace Golden

def LineError.movedBy (k : Nat) (e : LineError) : LineError :=
  { e with line := e.line + k }

def parseLines (lines : List (List Char)) (start : Nat) : Except LineError (List GoldenRecord) :=
  ((lines.zipIdx start).filterMap fun (cs, line) =>
    if body cs = [] then none else some (body cs, line)).mapM fun (cs, line) => parseLine cs line

theorem parseChars_eq (text : List Char) : parseChars text = parseLines (text.splitOn '\n') 1 := rfl

variable {cs : List Char} {xs ys lines : List (List Char)} {start : Nat} {rs : List GoldenRecord}

theorem parseLines_cons_blank (hcs : body cs = []) :
    parseLines (cs :: lines) start = parseLines lines (start + 1) := by
  rw [parseLines, List.zipIdx_cons, List.filterMap_cons_none (by simp [hcs])]
  rfl

theorem parseLines_cons (hcs : body cs ≠ []) :
    parseLines (cs :: lines) start = do
      let r ← parseLine (body cs) start
      let rs ← parseLines lines (start + 1)
      return r :: rs := by
  rw [parseLines, List.zipIdx_cons, List.filterMap_cons]
  simp only [hcs, if_false, List.mapM_cons]
  rfl

theorem parseLines_cons_eq_ok_iff (hcs : body cs ≠ []) :
    parseLines (cs :: lines) start = .ok rs ↔
      ∃ r ts, parseLine (body cs) start = .ok r ∧ parseLines lines (start + 1) = .ok ts ∧
        rs = r :: ts := by
  rw [parseLines_cons hcs]
  simp only [bind_eq_ok_iff]
  constructor
  · rintro ⟨r, hr, ts, hts, heq⟩
    exact ⟨r, ts, hr, hts, (Except.ok.inj heq).symm⟩
  · rintro ⟨r, ts, hr, hts, rfl⟩
    exact ⟨r, hr, ts, hts, rfl⟩

theorem parseLines_append (xs ys : List (List Char)) (start : Nat) :
    parseLines (xs ++ ys) start = do
      let rs ← parseLines xs start
      let ts ← parseLines ys (start + xs.length)
      return rs ++ ts := by
  rw [parseLines, List.zipIdx_append, List.filterMap_append, List.mapM_append]
  rfl

theorem ofFields_add (fs : List Field) (line k : Nat) :
    ofFields fs (line + k) = (ofFields fs line).map (GoldenRecord.movedBy k) := by
  unfold ofFields
  cases assign fs [] with
  | error fault => rfl
  | ok found =>
    simp only [bind, Except.bind]
    cases require found .bytes with
    | error fault => rfl
    | ok bytes =>
      cases require found .seed with
      | error fault => rfl
      | ok seed =>
        cases require found .count with
        | error fault => rfl
        | ok count => cases require found .hash <;> rfl

theorem parseLine_add (cs : List Char) (line k : Nat) :
    parseLine cs (line + k) =
      match parseLine cs line with
      | .error e => .error (e.movedBy k)
      | .ok r => .ok (r.movedBy k) := by
  unfold parseLine
  cases fields cs with
  | error e => rfl
  | ok fs =>
    simp only [ofFields_add]
    cases ofFields fs line <;> rfl

theorem parseLines_add (lines : List (List Char)) (start k : Nat) :
    parseLines lines (start + k) =
      match parseLines lines start with
      | .error e => .error (e.movedBy k)
      | .ok rs => .ok (rs.map (GoldenRecord.movedBy k)) := by
  induction lines generalizing start with
  | nil => rfl
  | cons cs lines ih =>
    by_cases hcs : body cs = []
    · rw [parseLines_cons_blank hcs, parseLines_cons_blank hcs, ← ih, Nat.add_right_comm]
    · rw [parseLines_cons hcs, parseLines_cons hcs, parseLine_add, Nat.add_right_comm, ih]
      cases parseLine (body cs) start with
      | error e => rfl
      | ok r => cases parseLines lines (start + 1) <;> rfl

theorem length_splitOn (c : Char) (cs : List Char) : (cs.splitOn c).length = cs.count c + 1 := by
  induction cs with
  | nil => rfl
  | cons d cs ih =>
    rw [List.splitOn_cons_eq_if_modifyHead]
    by_cases hd : d = c
    · simp [hd, ih]
    · simp [hd, ih]

theorem parseChars_append (a b : List Char) :
    parseChars (a ++ '\n' :: b) =
      match parseChars a with
      | .error e => .error e
      | .ok rs =>
        match parseChars b with
        | .error e => .error (e.movedBy (a.count '\n' + 1))
        | .ok ts => .ok (rs ++ ts.map (GoldenRecord.movedBy (a.count '\n' + 1))) := by
  rw [parseChars_eq, parseChars_eq, parseChars_eq, List.splitOn_append_cons_of_beq _ _ (by simp),
    parseLines_append, length_splitOn, parseLines_add]
  cases parseLines (a.splitOn '\n') 1 with
  | error e => rfl
  | ok rs => cases parseLines (b.splitOn '\n') 1 <;> rfl

theorem parseLines_congr (h : List.Forall₂ (fun cs ds => body cs = body ds) xs ys) (start : Nat) :
    parseLines xs start = parseLines ys start := by
  induction h generalizing start with
  | nil => rfl
  | @cons cs ds xs ys hbody _ ih =>
    by_cases hcs : body cs = []
    · rw [parseLines_cons_blank hcs, parseLines_cons_blank (hbody ▸ hcs), ih]
    · rw [parseLines_cons hcs, parseLines_cons (hbody ▸ hcs), hbody, ih]

inductive Retouch : List Char → List Char → Prop
  | comment (line remark : List Char) : Retouch line (line ++ '#' :: remark)
  | spaces {before after : List Char} (line : List Char)
      (before_spaces : ∀ c ∈ before, Text.isSpace c) (after_spaces : ∀ c ∈ after, Text.isSpace c) :
      Retouch line (before ++ (line ++ after))
  | carriageReturn (line : List Char) : Retouch line (line ++ ['\r'])

theorem body_comment (line remark : List Char) : body (line ++ '#' :: remark) = body line := by
  have hfront : (line ++ '#' :: remark).takeWhile (· ≠ '#') = line.takeWhile (· ≠ '#') := by
    rw [List.takeWhile_append]
    split
    · next hall =>
      rw [List.takeWhile_cons_of_neg (by simp), List.append_nil]
      exact (List.takeWhile_prefix _).eq_of_length hall |>.symm
    · rfl
  rw [body, hfront, body]

theorem exists_takeWhile_append {after : List Char} (hafter : ∀ c ∈ after, Text.isBlank c)
    (line : List Char) :
    ∃ kept, (line ++ after).takeWhile (· ≠ '#') = line.takeWhile (· ≠ '#') ++ kept ∧
      ∀ c ∈ kept, Text.isBlank c := by
  rw [List.takeWhile_append]
  split
  · next hall =>
    refine ⟨after.takeWhile (· ≠ '#'), ?_, fun c hc => hafter c (List.takeWhile_subset _ hc)⟩
    rw [(List.takeWhile_prefix _).eq_of_length hall]
  · exact ⟨[], (List.append_nil _).symm, List.forall_mem_nil _⟩

theorem body_blank_append {before after : List Char} (hbefore : ∀ c ∈ before, Text.isBlank c)
    (hafter : ∀ c ∈ after, Text.isBlank c) (line : List Char) :
    body (before ++ (line ++ after)) = body line := by
  have hsign : ∀ c ∈ before, decide (c ≠ '#') := by
    intro c hc
    apply decide_eq_true
    rintro rfl
    exact absurd (hbefore _ hc) (by decide)
  obtain ⟨kept, hkept, hblank⟩ := exists_takeWhile_append hafter line
  rw [body, List.takeWhile_append_of_pos hsign, hkept, Text.trim_blank_append hbefore hblank, body]

theorem Retouch.body_eq {line retouched : List Char} (h : Retouch line retouched) :
    body line = body retouched := by
  cases h with
  | comment _ remark => exact (body_comment line remark).symm
  | spaces _ hbefore hafter =>
    exact (body_blank_append (fun c hc => Text.isBlank_of_isSpace (hbefore c hc))
      (fun c hc => Text.isBlank_of_isSpace (hafter c hc)) line).symm
  | carriageReturn =>
    have hblank : ∀ c ∈ ['\r'], Text.isBlank c := by simp [Text.isBlank]
    exact (body_blank_append (List.forall_mem_nil _) hblank line).symm

theorem body_eq_of_retouched {line retouched : List Char}
    (h : Relation.ReflTransGen Retouch line retouched) : body line = body retouched := by
  induction h with
  | refl => rfl
  | tail _ hstep ih => exact ih.trans hstep.body_eq

theorem line_of_parseLine {line : Nat} {r : GoldenRecord} (h : parseLine cs line = .ok r) :
    r.line = line := by
  obtain ⟨_, _, _, _, rfl⟩ := parseLine_eq_ok_iff_tokens.1 h
  rfl

theorem exists_line_of_mem (h : parseLines lines start = .ok rs) {r : GoldenRecord} (hr : r ∈ rs) :
    ∃ i cs, lines[i]? = some cs ∧ r.line = start + i ∧ body cs ≠ [] ∧
      parseLine (body cs) r.line = .ok r := by
  induction lines generalizing start rs with
  | nil =>
    obtain rfl := Except.ok.inj h
    exact absurd hr List.not_mem_nil
  | cons cs lines ih =>
    have hlater {ts : List GoldenRecord} (hts : parseLines lines (start + 1) = .ok ts)
        (hmem : r ∈ ts) : ∃ i ds, (cs :: lines)[i]? = some ds ∧ r.line = start + i ∧ body ds ≠ [] ∧
          parseLine (body ds) r.line = .ok r := by
      obtain ⟨i, ds, hi, hline, hrest⟩ := ih hts hmem
      exact ⟨i + 1, ds, by simpa using hi, by omega, hrest⟩
    by_cases hcs : body cs = []
    · rw [parseLines_cons_blank hcs] at h
      exact hlater h hr
    · obtain ⟨first, ts, hfirst, hts, rfl⟩ := (parseLines_cons_eq_ok_iff hcs).1 h
      rcases List.mem_cons.1 hr with rfl | hmem
      · have hline := line_of_parseLine hfirst
        exact ⟨0, cs, rfl, hline, hcs, hline ▸ hfirst⟩
      · exact hlater hts hmem

theorem exists_mem_of_line (h : parseLines lines start = .ok rs) {i : Nat}
    (hi : lines[i]? = some cs) (hcs : body cs ≠ []) : ∃ r ∈ rs, r.line = start + i := by
  induction lines generalizing start rs i with
  | nil => exact absurd hi (by simp)
  | cons ds lines ih =>
    by_cases hds : body ds = []
    · rw [parseLines_cons_blank hds] at h
      cases i with
      | zero =>
        obtain rfl : ds = cs := by simpa using hi
        exact absurd hds hcs
      | succ i =>
        obtain ⟨r, hr, hline⟩ := ih h (by simpa using hi)
        exact ⟨r, hr, by omega⟩
    · obtain ⟨first, ts, hfirst, hts, rfl⟩ := (parseLines_cons_eq_ok_iff hds).1 h
      cases i with
      | zero => exact ⟨first, List.mem_cons_self, line_of_parseLine hfirst⟩
      | succ i =>
        obtain ⟨r, hr, hline⟩ := ih hts (by simpa using hi)
        exact ⟨r, List.mem_cons_of_mem _ hr, by omega⟩

theorem pairwise_line (h : parseLines lines start = .ok rs) :
    (rs.map (·.line)).Pairwise (· < ·) := by
  induction lines generalizing start rs with
  | nil =>
    obtain rfl := Except.ok.inj h
    exact .nil
  | cons cs lines ih =>
    by_cases hcs : body cs = []
    · rw [parseLines_cons_blank hcs] at h
      exact ih h
    · obtain ⟨first, ts, hfirst, hts, rfl⟩ := (parseLines_cons_eq_ok_iff hcs).1 h
      refine .cons ?_ (ih hts)
      intro line hline
      obtain ⟨r, hr, rfl⟩ := List.mem_map.1 hline
      obtain ⟨i, _, _, hlater, _⟩ := exists_line_of_mem hts hr
      have hstart := line_of_parseLine hfirst
      change first.line < r.line
      omega

theorem text_composition :
    (∀ a b : String, parse (a ++ "\n" ++ b) =
      match parse a with
      | .error e => .error e
      | .ok rs =>
        match parse b with
        | .error e => .error (e.movedBy (a.toList.count '\n' + 1))
        | .ok ts => .ok (rs ++ ts.map (GoldenRecord.movedBy (a.toList.count '\n' + 1)))) ∧
    (∀ text retouched : String,
      List.Forall₂ (Relation.ReflTransGen Retouch) (text.toList.splitOn '\n')
        (retouched.toList.splitOn '\n') → parse text = parse retouched) ∧
    ∀ (text : String) (rs : List GoldenRecord), parse text = .ok rs →
      (rs.map (·.line)).Pairwise (· < ·) ∧
      (∀ r ∈ rs, ∃ i cs, (text.toList.splitOn '\n')[i]? = some cs ∧ r.line = i + 1 ∧ body cs ≠ [] ∧
        parseLine (body cs) r.line = .ok r) ∧
      ∀ i cs, (text.toList.splitOn '\n')[i]? = some cs → body cs ≠ [] →
        ∃ r ∈ rs, r.line = i + 1 := by
  refine ⟨fun a b => ?_, fun text retouched h => ?_, fun text rs h => ?_⟩
  · have hlines : (a ++ "\n" ++ b).toList = a.toList ++ '\n' :: b.toList := by simp
    rw [parse, hlines, parseChars_append]
    rfl
  · exact parseLines_congr (h.imp fun _ _ => body_eq_of_retouched) 1
  · refine ⟨pairwise_line h, fun r hr => ?_, fun i cs hi hcs => ?_⟩
    · obtain ⟨i, cs, hi, hline, hrest⟩ := exists_line_of_mem h hr
      exact ⟨i, cs, hi, by omega, hrest⟩
    · obtain ⟨r, hr, hline⟩ := exists_mem_of_line h hi hcs
      exact ⟨r, hr, by omega⟩

def plainText : String :=
  "# engine 0\nbytes=8 seed=0 count=1 hash=1"

def retouchedText : String :=
  "# engine 0\r\n\t bytes=8 seed=0 count=1 hash=1  # at rest"

theorem text_composition_retouched :
    parse plainText = .ok [⟨8, 0, 1, 1, 2⟩] ∧ parse retouchedText = .ok [⟨8, 0, 1, 1, 2⟩] ∧
      parse (plainText ++ "\n" ++ "bogus") = .error ⟨3, .malformed [] .equals⟩ ∧
      parse (plainText ++ "\n" ++ plainText) = .ok [⟨8, 0, 1, 1, 2⟩, ⟨8, 0, 1, 1, 4⟩] ∧
      ∃ cs, (plainText.toList.splitOn '\n')[1]? = some cs ∧
        parseLine (body cs) 2 = .ok ⟨8, 0, 1, 1, 2⟩ := by
  obtain ⟨happend, hretouch, hrecords⟩ := text_composition
  have hplain : parse plainText = .ok [⟨8, 0, 1, 1, 2⟩] := rfl
  have hsame : parse plainText = parse retouchedText := by
    apply hretouch
    have hlines : plainText.toList.splitOn '\n' =
        ["# engine 0".toList, "bytes=8 seed=0 count=1 hash=1".toList] := by decide
    have hretouched : retouchedText.toList.splitOn '\n' = ["# engine 0".toList ++ ['\r'],
        ['\t', ' '] ++ ("bytes=8 seed=0 count=1 hash=1".toList ++ [' ', ' ']) ++
          '#' :: " at rest".toList] := by decide
    rw [hlines, hretouched]
    have hbefore : ∀ c ∈ ['\t', ' '], Text.isSpace c := by simp [Text.isSpace]
    have hafter : ∀ c ∈ [' ', ' '], Text.isSpace c := by simp [Text.isSpace]
    exact .cons (.single (.carriageReturn _))
      (.cons (.tail (.single (.spaces _ hbefore hafter)) (.comment _ _)) .nil)
  obtain ⟨_, hstands, _⟩ := hrecords _ _ hplain
  obtain ⟨i, cs, hi, hline, _, hparse⟩ := hstands _ List.mem_cons_self
  obtain rfl : i = 1 := by simpa using hline
  refine ⟨hplain, hsame.symm.trans hplain, ?_, ?_, cs, hi, hparse⟩
  · rw [happend, hplain]
    rfl
  · rw [happend, hplain]
    rfl

end Golden

end AfuBench
