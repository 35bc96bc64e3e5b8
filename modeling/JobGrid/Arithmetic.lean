/-!
# Arithmetic

Powers and sums of numbers stand for the operations of the core library, wherever they are
written. Modules that know more of algebra would choose others.
-/

namespace JobGrid

/-- Powers of numbers. -/
instance (priority := 20000) powNat {α : Type} [NatPow α] : Pow α Nat := instPowNat

attribute [default_instance 20000] powNat

/-- The sum of no natural numbers. -/
instance (priority := 20000) zeroNat : Zero Nat := .ofOfNat0

end JobGrid
