/-!
# Blank characters

The Unicode property `White_Space`. Source text additionally treats the byte order mark as
blank, which `isSpacing` says; trimming a line does not.
-/

set_option autoImplicit false

namespace RuleScout.Text

def isBlank (c : Char) : Bool :=
  let n := c.toNat
  (9 ≤ n && n ≤ 13) || n = 0x20 || n = 0x85 || n = 0xA0 || n = 0x1680 ||
    (0x2000 ≤ n && n ≤ 0x200A) || n = 0x2028 || n = 0x2029 || n = 0x202F || n = 0x205F ||
    n = 0x3000

def isSpacing (c : Char) : Bool :=
  isBlank c || c.toNat = 0xFEFF

def trimStart (cs : List Char) : List Char := cs.dropWhile isBlank

def trimEnd (cs : List Char) : List Char := (cs.reverse.dropWhile isBlank).reverse

def trim (cs : List Char) : List Char := trimEnd (trimStart cs)

end RuleScout.Text
