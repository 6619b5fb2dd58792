import SafetyCase.Text.Quoted
import SafetyCase.Json.Token
/-! Identifiers: numbers written as five hyphenated groups of hexadecimal digits. Those below `2 ^ 128`
have the usual 36 characters; a larger one would widen its first group. Fresh identifiers are
numbered from a fixed base. -/
namespace SafetyCase

structure Identifier where
  value : Nat
  deriving DecidableEq

namespace Identifier
open Text (hexDigits)

def leadingWidth (n : Nat) : Nat := max 8 (Nat.log2 n / 4 + 1)

def digitGroups (n : Nat) : List (List Char) :=
  [hexDigits (leadingWidth (n >>> 96)) (n >>> 96), hexDigits 4 (n >>> 80), hexDigits 4 (n >>> 64),
    hexDigits 4 (n >>> 48), hexDigits 12 n]

def text (i : Identifier) : String := String.ofList (['-'].intercalate (digitGroups i.value))

def ofDigits? (cs : List Char) : Option Identifier :=
  if cs.length = 32 then (Json.hexNumber? cs).map (⟨·⟩) else none

def unhyphenated? (cs : List Char) : Option (List Char) :=
  if cs.length = 36 && [8, 13, 18, 23].all (fun i => cs[i]? = some '-') then
    some (cs.take 8 ++ (cs.drop 9).take 4 ++ (cs.drop 14).take 4 ++ (cs.drop 19).take 4 ++ cs.drop 24)
  else none

def urnMark : List Char := "urn:uuid:".toList

def ofText? (s : String) : Option Identifier :=
  let cs := s.toList
  if cs.length = 32 then ofDigits? cs
  else if cs.length = 38 && cs.head? = some '\x7b' && cs.getLast? = some '\x7d' then
    (unhyphenated? ((cs.drop 1).take 36)).bind ofDigits?
  else if urnMark.isPrefixOf cs then (unhyphenated? (cs.drop urnMark.length)).bind ofDigits?
  else (unhyphenated? cs).bind ofDigits?

def base : Nat := 0x40008000000000000000

def numbered (n : Nat) : Identifier := ⟨base + n⟩

theorem numberedInj {m n : Nat} : numbered m = numbered n ↔ m = n := by
  simp [numbered]

example : (numbered 10).text = "00000000-0000-4000-8000-00000000000a" := by decide +kernel
example : ofText? "00000000-0000-4000-8000-00000000000A" = some (numbered 10) := by decide +kernel

end Identifier
end SafetyCase
