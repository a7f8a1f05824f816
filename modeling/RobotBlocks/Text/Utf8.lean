import RobotBlocks.Text.Quoted

/-!
# Reading UTF-8

The characters of a row of bytes. A sequence is one byte below `0x80`, or a first byte that
announces one to three more, each between `0x80` and `0xBF`; the range of the second one is narrower
after four of the first bytes, so that no character has two spellings, none is a surrogate and none
lies beyond U+10FFFF. The first sequence that breaks this stops the reading, and its fault names the
bytes that were taken to belong together.
-/

namespace RobotBlocks

namespace Utf8

/-- What is wrong with a sequence. -/
inductive Problem
  /-- No sequence begins with this byte. -/
  | start
  /-- A byte that does not continue the sequence. -/
  | continuation
  /-- The bytes end inside the sequence. -/
  | ending
  deriving DecidableEq, Repr

/-- A broken sequence: where it starts, how many bytes belong to it and its first byte. -/
structure Fault where
  problem : Problem
  position : Nat
  length : Nat
  byte : UInt8
  deriving DecidableEq, Repr

/-- The wording of a problem. -/
def Problem.message : Problem → String
  | .start => "invalid start byte"
  | .continuation => "invalid continuation byte"
  | .ending => "unexpected end of data"

/-- The wording of a fault. -/
def Fault.message (f : Fault) : String :=
  let place :=
    if f.length == 1 then
      "byte 0x" ++ String.ofList (hexChars 2 f.byte.toNat) ++ " in position " ++ natText f.position
    else
      "bytes in position " ++ natText f.position ++ "-" ++ natText (f.position + f.length - 1)
  "'utf-8' codec can't decode " ++ place ++ ": " ++ f.problem.message

/-- A first byte: how many bytes follow it, the bits it gives to the code point, and the range of
the second byte. -/
structure Lead where
  more : Nat
  bits : Nat
  low : Nat
  high : Nat

/-- What a byte announces when it begins a sequence. -/
def lead? (b : Nat) : Option Lead :=
  if b < 0x80 then some ⟨0, b, 0, 0⟩
  else if b < 0xC2 then none
  else if b < 0xE0 then some ⟨1, b - 0xC0, 0x80, 0xBF⟩
  else if b < 0xF0 then
    some ⟨2, b - 0xE0, if b == 0xE0 then 0xA0 else 0x80, if b == 0xED then 0x9F else 0xBF⟩
  else if b < 0xF5 then
    some ⟨3, b - 0xF0, if b == 0xF0 then 0x90 else 0x80, if b == 0xF4 then 0x8F else 0xBF⟩
  else none

/-- The code point of a sequence whose next bytes must lie between `low` and `high` first and be
plain continuations then, with the number of bytes taken; or what is wrong and how many bytes had
been taken until then. -/
def follow : (more : Nat) → (low high code taken : Nat) → List UInt8 → Except (Problem × Nat) Nat
  | 0, _, _, code, _, _ => .ok code
  | _ + 1, _, _, _, taken, [] => .error (.ending, taken)
  | more + 1, low, high, code, taken, b :: rest =>
    if low ≤ b.toNat && b.toNat ≤ high then
      follow more 0x80 0xBF (64 * code + (b.toNat - 0x80)) (taken + 1) rest
    else .error (.continuation, taken)

/-- The characters of the bytes from a position on; `skip` bytes belong to the character before. -/
def decodeFrom : (position skip : Nat) → List UInt8 → Except Fault (List Char)
  | _, _, [] => .ok []
  | position, skip + 1, _ :: rest => decodeFrom (position + 1) skip rest
  | position, 0, b :: rest =>
    match lead? b.toNat with
    | none => .error ⟨.start, position, 1, b⟩
    | some lead =>
      match follow lead.more lead.low lead.high lead.bits 1 rest with
      | .error (problem, taken) => .error ⟨problem, position, taken, b⟩
      | .ok code => (decodeFrom (position + 1) lead.more rest).map (Char.ofNat code :: ·)

/-- The characters of the bytes. -/
def decode (bytes : List UInt8) : Except Fault (List Char) := decodeFrom 0 0 bytes

end Utf8

/-- The characters with every line end, also a carriage return of its own, as one newline. -/
def plainNewlines : List Char → List Char
  | [] => []
  | '\r' :: '\n' :: rest => '\n' :: plainNewlines rest
  | '\r' :: rest => '\n' :: plainNewlines rest
  | c :: rest => c :: plainNewlines rest

end RobotBlocks
