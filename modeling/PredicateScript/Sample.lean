import PredicateScript.Typing.Supervision

/-!
# A sample host, and scripts of any depth

`sampleContext` is what a node of a ledger would offer to a script that
guards a transfer: the transaction at hand, the height of the chain, and a
few native functions, some of them with placeholders. `nestedSum` and
`nestedLets` build scripts that are exactly as deep as asked for, the one
leaning to the left, the other to the right.
-/

namespace PredicateScript

namespace Sample

/-- The record of a transaction. -/
def transaction : RecordType where
  fields := [
    ("type", .long), ("id", .byteVector), ("fee", .long),
    ("amount", .long), ("timestamp", .long), ("bodyBytes", .byteVector),
    ("senderPk", .byteVector), ("proof0", .byteVector),
    ("attachment", .string), ("recipient", .named "Address")]

/-- The record of an address. -/
def address : RecordType where
  fields := [("bytes", .byteVector), ("chainId", .long)]

/-- A placeholder in a signature. -/
def placeholder (letter : Char) : SigTy := .param ⟨letter⟩

/-- A byte vector in a signature. -/
def bytes : SigTy := .concrete .byteVector

end Sample

open Sample in
/-- **The context of the sample host.** -/
def sampleContext : Context :=
  Context.empty
    |>.withType "Transaction" transaction
    |>.withType "Address" address
    |>.bind "height" .long
    |>.bind "tx" (.named "Transaction")
    |>.withFunction "sigVerify" ⟨[bytes, bytes, bytes], .concrete .boolean⟩
    |>.withFunction "size" ⟨[bytes], .concrete .long⟩
    |>.withFunction "id" ⟨[placeholder 'T'], placeholder 'T'⟩
    |>.withFunction "choose"
      ⟨[placeholder 'T', placeholder 'T'], placeholder 'T'⟩
    |>.withFunction "first"
      ⟨[placeholder 'A', placeholder 'B'], placeholder 'A'⟩
    |>.withFunction "isDefined" ⟨[placeholder 'T'], .concrete .boolean⟩
    |>.withFunction "pick" ⟨[.concrete .long], placeholder 'R'⟩

/-- A supervised check in the sample context. -/
def checkSample (e : Expr) (sink : Sink) : Outcome × Sink :=
  check sampleContext e sink

/-- A check in the sample context without supervision, under a depth
limit. -/
def checkSampleWithin (maxDepth : UInt64) (e : Expr) (sink : Sink) :
    Outcome × Sink :=
  let (outcome, _, sink) :=
    (Checker.new ⟨maxDepth⟩).run sampleContext e sink
  (outcome, sink)

/-- An integer constant. -/
def Expr.long (n : Int64) : Expr := .lit () (.long n)

/-- **A sum of the given depth**, leaning to the left:
`((0 + 0) + 1) + …`. -/
def nestedSum (depth : Nat) : Expr :=
  depth.fold (fun i _ acc => .binary () .sum acc (Expr.long (.ofNat i)))
    (Expr.long 0)

/-- The bindings `v0` to `v(count - 1)`, one inside the other, around a
body. -/
def nestedLets (count : Nat) (body : Expr) : Expr :=
  count.foldRev
    (fun i _ acc => .letIn () ("v" ++ toString i) (Expr.long 0) acc) body

end PredicateScript
