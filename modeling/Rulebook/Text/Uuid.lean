/-!
Identifiers that are unique without a registry (UUID, version 7): 48 bits of time in milliseconds,
so that they are ordered by time, and 74 random bits.
-/

set_option autoImplicit false

namespace Rulebook.Uuid

def hex (width n : Nat) : List Char :=
  (List.range width).reverse.map fun k => Nat.digitChar (n / Nat.pow 16 k % 16)

def text (n : Nat) : String :=
  String.ofList (['-'].intercalate
    [hex 8 (n >>> 96), hex 4 (n >>> 80), hex 4 (n >>> 64), hex 4 (n >>> 48), hex 12 n])

/-- The version stands in the bits from 76 on, the variant in the bits from 62 on. -/
def version7 (milliseconds random : Nat) : String :=
  text ((milliseconds % 0x1000000000000) <<< 80 + 7 <<< 76 + ((random >>> 62) % 0x1000) <<< 64 +
    2 <<< 62 + random % 0x4000000000000000)

end Rulebook.Uuid
