import HdhrEmu.Lib.CString

/-!
# The value of a `target` SET

A destination is `ip:port`, with an optional scheme in front.  The address is
only read by the push thread, after the SET has been answered.
-/

namespace HdhrEmu

open CString

/-- `strstr(value, "://")`, and what follows it. -/
def afterScheme? : CStr → Option CStr
  | [] => none
  | first :: rest =>
      match "://".toList.isPrefixOf? (first :: rest) with
      | some text => some text
      | none => afterScheme? rest

structure UdpTarget where
  ip : CStr
  port : Int
  deriving DecidableEq, Repr

def parseUdpTarget (value : CStr) : Option UdpTarget :=
  match splitAtLast? ':' ((afterScheme? value).getD value) with
  | none => none
  | some (ip, text) =>
      if ip.length = 0 ∨ 64 ≤ ip.length then none
      else
        let port := atoi text
        if port ≤ 0 ∨ 65535 < port then none else some ⟨ip, port⟩

/-- A decimal octet without leading zeros. -/
def inetOctet? (text : CStr) : Option Nat :=
  let value := Nat.ofDigitChars 10 text 0
  if text ≠ [] ∧ text.all Char.isDigit ∧ (text.head? = some '0' → text.length = 1) ∧ value ≤ 255 then
    some value
  else none

/-- `inet_pton(AF_INET, ...)`; the first octet is the low byte of `s_addr`. -/
def inetPton (ip : CStr) : Option UInt32 :=
  match (ip.splitOn '.').mapM inetOctet? with
  | some [a, b, c, d] => some (UInt32.ofNat (a + 256 * (b + 256 * (c + 256 * d))))
  | _ => none

example : (parseUdpTarget "udp://10.0.0.2:5000".toList).map (fun target => inetPton target.ip) =
    some (some 0x0200000a) := by
  decide

end HdhrEmu
