import PredicateScript.Ty
import PredicateScript.Text.Quoted

/-!
# Literals

The constants of a script, one kind for each primitive type.
-/

namespace PredicateScript

/-- **A constant.** -/
inductive Literal where
  /-- A signed 64-bit integer. -/
  | long (value : Int64)
  /-- A sequence of bytes. -/
  | bytes (value : List UInt8)
  /-- A text. -/
  | text (value : String)
  /-- A truth value. -/
  | bool (value : Bool)
  deriving DecidableEq, Repr, Inhabited

namespace Literal

/-- The type of a constant is that of its kind. -/
def ty : Literal → Ty
  | long _ => .long
  | bytes _ => .byteVector
  | text _ => .string
  | bool _ => .boolean

/-- A byte as two lower-case hexadecimal digits. -/
def hexByte (b : UInt8) : List Char :=
  [Nat.digitChar (b.toNat / 16), Nat.digitChar (b.toNat % 16)]

/-- Bytes as hexadecimal digits, two a byte. -/
def hex (bs : List UInt8) : String :=
  String.ofList (bs.flatMap hexByte)

/-- **The constant as scripts write it**: an integer in decimal, bytes in
hexadecimal after `0x`, a text between quotes. -/
def render : Literal → String
  | long n => toString n.toInt
  | bytes bs => "0x" ++ hex bs
  | text s => Text.quoted s
  | bool true => "true"
  | bool false => "false"

end Literal

end PredicateScript
