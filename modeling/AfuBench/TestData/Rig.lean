import AfuBench.TestData.Checker
/-!
A generator and a checker driven side by side by one list of requests. The checker takes a vector in
where its buckets lie; what a request has changed by the time it fails stays changed.
-/

namespace AfuBench

structure Rig where
  generator : Generator
  checker : Checker
  deriving DecidableEq, Repr

namespace Rig

def new (bytes : Nat) (seed : UInt64) (checkerBytes : Nat) : Except DataError Rig := do
  let generator ← Generator.new bytes seed
  let checker ← Checker.new checkerBytes
  return ⟨generator, checker⟩

inductive Request where
  | advance
  | restartGenerator
  | updateGenerated
  | updateWith (data : List UInt64)
  | restartChecker
  deriving DecidableEq, Repr

abbrev Driver := ExceptT DataError (StateM Rig)

def absorbPairs : List UInt32 → List UInt64 → List UInt32
  | low :: high :: buckets, w :: data =>
    RollingHash.step low (Word.lowLane w) :: RollingHash.step high (Word.highLane w) ::
      absorbPairs buckets data
  | buckets, _ => buckets

def takeIn (data : List UInt64) : Driver Unit := do
  match wordCount (8 * data.length) with
  | .error e => throw e
  | .ok _ =>
    let buckets := (← get).checker.buckets
    if buckets.length ≠ 2 * data.length then
      throw (.bucketMismatch (2 * data.length) buckets.length)
    modify fun rig => { rig with checker := ⟨absorbPairs rig.checker.buckets data⟩ }

def serve : Request → Driver Unit
  | .advance => modify fun rig => { rig with generator := rig.generator.advance }
  | .restartGenerator => modify fun rig => { rig with generator := rig.generator.restart }
  | .updateGenerated => do takeIn (← get).generator.data
  | .updateWith data => takeIn data
  | .restartChecker => modify fun rig => { rig with checker := rig.checker.restart }

def answer (rig : Rig) (r : Request) : Except DataError Unit :=
  ((serve r).run.run rig).1

def after (rig : Rig) (r : Request) : Rig :=
  ((serve r).run.run rig).2

def offered (rig : Rig) : Request → Option (List UInt64)
  | .updateGenerated => some rig.generator.data
  | .updateWith data => some data
  | _ => none

structure Entry where
  request : Request
  offered : Option (List UInt64)
  answer : Except DataError Unit

/-- Serves requests one after the other, whether they succeed or not, and records the answers. -/
def run (rig : Rig) : List Request → List Entry × Rig
  | [] => ([], rig)
  | r :: rs =>
    let rest := (rig.after r).run rs
    (⟨r, rig.offered r, rig.answer r⟩ :: rest.1, rest.2)

end Rig

end AfuBench
