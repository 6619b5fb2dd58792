/-! White space and trimming. Two classes occur: the Unicode property, and the wider class that also
holds the four information separators. Trimming looks at both ends only. -/
namespace SafetyCase.Text

def isSpace (c : Char) : Bool :=
  let n := c.toNat
  (9 ≤ n && n ≤ 13) || n == 32 || n == 0x85 || n == 0xA0 || n == 0x1680 ||
    (0x2000 ≤ n && n ≤ 0x200A) || n == 0x2028 || n == 0x2029 || n == 0x202F || n == 0x205F || n == 0x3000

def isBlank (c : Char) : Bool := isSpace c || (0x1C ≤ c.toNat && c.toNat ≤ 0x1F)

def trimEnd (p : Char → Bool) (cs : List Char) : List Char := (cs.reverse.dropWhile p).reverse

def trim (p : Char → Bool) (cs : List Char) : List Char := trimEnd p (cs.dropWhile p)

def strip (s : String) : String := String.ofList (trim isBlank s.toList)

theorem spaceIsBlank {c : Char} (h : isSpace c = true) : isBlank c = true := by
  simp [isBlank, h]

theorem trimOfEnds {p : Char → Bool} {cs : List Char} (first : ∀ c, cs.head? = some c → p c = false)
    (last : ∀ c, cs.getLast? = some c → p c = false) : trim p cs = cs := by
  have front : cs.dropWhile p = cs := by
    cases cs with
    | nil => rfl
    | cons c rest => simp [first c rfl]
  have back : cs.reverse.dropWhile p = cs.reverse := by
    cases h : cs.reverse with
    | nil => rfl
    | cons c rest =>
      have : cs.getLast? = some c := by rw [← List.head?_reverse, h]; rfl
      simp [last c this]
  simp [trim, trimEnd, front, back]

end SafetyCase.Text
