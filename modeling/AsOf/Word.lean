namespace AsOf

/-- The least natural number that does not fit into an integer of some bits without sign. -/
def unsignedBound (bits : Nat) : Nat := Nat.pow 2 bits

/-- The least natural number that does not fit into an integer of some bits with sign; its opposite
does. -/
def signedBound (bits : Nat) : Nat := Nat.pow 2 (bits - 1)

end AsOf
