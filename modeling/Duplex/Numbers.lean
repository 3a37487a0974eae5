/-!
# Powers and sums of natural numbers

The core library and others read a power or a sum of natural numbers with different instances. A
module that states something about one opens this namespace, and then reads it as the core library
does.
-/

namespace Duplex.Numbers

scoped instance natPow : Pow Nat Nat := instPowNat

scoped instance natZero : Zero Nat := Zero.ofOfNat0

end Duplex.Numbers
