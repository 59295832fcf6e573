/-!
# Numbers as text

`hex` and `hexPadded` write a number in lower-case hexadecimal behind `0x`; the width of
`hexPadded` counts the `0x` too. `padLeft` fills a text up from the left.
-/

namespace SecureDigital.Text

/-- Puts as many `fill`s in front of `text` as bring it to `width` characters. -/
def padLeft (width : Nat) (fill : Char) (text : String) : String :=
  String.ofList (List.replicate (width - text.length) fill) ++ text

def hexDigits (width n : Nat) : String :=
  padLeft width '0' (String.ofList (Nat.toDigits 16 n))

def hex (n : Nat) : String := "0x" ++ hexDigits 1 n

/-- The text of `hex n` with zeros after the `0x`, to make at least `width` characters in all. -/
def hexPadded (width n : Nat) : String := "0x" ++ hexDigits (width - 2) n

theorem length_padLeft (width : Nat) (fill : Char) (text : String) :
    (padLeft width fill text).length = max width text.length := by
  simp [padLeft]; omega

end SecureDigital.Text
