import HdhrEmu.Lib.CString
import Mathlib.Algebra.GroupWithZero.Nat

/-!
# PID filters

The text of `/tunerN/filter` is a list of hexadecimal PIDs and PID ranges.
-/

namespace HdhrEmu

open CString

structure PidRange where
  start : UInt16
  last : UInt16
  deriving DecidableEq, Repr

def pidFilterMaxRanges : Nat := 32

def hexDigit? (character : Char) : Option Nat :=
  if character.isDigit then some (character.toNat - '0'.toNat)
  else if 'a' ≤ character ∧ character ≤ 'f' then some (character.toNat - 'a'.toNat + 10)
  else if 'A' ≤ character ∧ character ≤ 'F' then some (character.toNat - 'A'.toNat + 10)
  else none

/-- The digits at the front of a text, as a number; `none` without any. -/
def hexDigits (text : CStr) : Option Nat :=
  match text.takeWhile fun character => (hexDigit? character).isSome with
  | [] => none
  | digits => some (digits.foldl (fun sum character => 16 * sum + (hexDigit? character).getD 0) 0)

/-- The digits behind a sign: a second `0x` is part of them, and a bare `0x`
reads as zero. -/
def scanMagnitude (text : CStr) : Option Nat :=
  match text with
  | '0' :: 'x' :: digits | '0' :: 'X' :: digits => some ((hexDigits digits).getD 0)
  | _ => hexDigits text

/-- An `unsigned long` cut to 32 bits; out of its range a number saturates, with
or without a sign. -/
def unsignedOf (negative : Bool) (magnitude : Nat) : UInt32 :=
  UInt32.ofNat
    (if 2 ^ 64 ≤ magnitude then 2 ^ 64 - 1
    else if negative then 2 ^ 64 - magnitude
    else magnitude)

/-- The number `%x` reads. -/
def scanHex (text : CStr) : Option UInt32 :=
  match text with
  | '-' :: rest => (scanMagnitude rest).map (unsignedOf true)
  | '+' :: rest => (scanMagnitude rest).map (unsignedOf false)
  | _ => (scanMagnitude text).map (unsignedOf false)

/-- `sscanf(text, "0x%x", &value)`. -/
def scanPid (text : CStr) : Option UInt32 :=
  match "0x".toList.isPrefixOf? text with
  | some rest => scanHex rest
  | none => none

def pidRange (token : CStr) : Option PidRange :=
  if 32 ≤ token.length then none
  else
    let bounds :=
      match splitAt? '-' token with
      | some (first, second) => (scanPid first).bind fun start => (scanPid second).map (start, ·)
      | none => (scanPid token).map fun start => (start, start)
    match bounds with
    | some (start, last) =>
        if 0x1FFF < start ∨ 0x1FFF < last ∨ last < start then none
        else some ⟨start.toUInt16, last.toUInt16⟩
    | none => none

/-- The tokens between white space. -/
def tokens (text : CStr) : List CStr :=
  (text.splitBy fun first second => isSpace first == isSpace second).filter
    fun run => !(run.headD ' ' |> isSpace)

def pidFilterParse (text : CStr) : Option (List PidRange) :=
  match (tokens text).mapM pidRange with
  | some ranges => if ranges.length ≤ pidFilterMaxRanges then some ranges else none
  | none => none

def PidRange.span (range : PidRange) : Nat :=
  range.last.toNat + 1 - range.start.toNat

def PidRange.pids (range : PidRange) : List UInt16 :=
  (List.range range.span).map fun offset => range.start + UInt16.ofNat offset

def pidFilterTotalCount (ranges : List PidRange) : Nat :=
  (ranges.map PidRange.span).sum

example : pidFilterParse " 0x0031  0x0034-0x0036".toList = some [⟨0x31, 0x31⟩, ⟨0x34, 0x36⟩] := by
  decide

end HdhrEmu
