namespace BL.Text

/-!
# Blank characters

Words of a source text are separated by blanks, and a word that is no identifier ends only at one.

* `isBlank` — the 29 blank characters of Unicode.
-/

/-- White space in the sense of Unicode: the ASCII blanks and separators `U+0009`–`U+000D`,
    `U+001C`–`U+001F` and the space, `U+0085`, and the space separators beyond ASCII. -/
def isBlank (c : Char) : Bool :=
  let n := c.toNat
  n == 0x20 || (0x09 ≤ n && n ≤ 0x0D) || (0x1C ≤ n && n ≤ 0x1F) || n == 0x85 || n == 0xA0 ||
    n == 0x1680 || (0x2000 ≤ n && n ≤ 0x200A) || n == 0x2028 || n == 0x2029 || n == 0x202F ||
    n == 0x205F || n == 0x3000

@[simp] theorem isBlank_space : isBlank ' ' = true := rfl
@[simp] theorem isBlank_newline : isBlank '\n' = true := rfl
@[simp] theorem isBlank_hash : isBlank '#' = false := rfl

end BL.Text
