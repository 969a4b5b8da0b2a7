/-
Machine words: whole numbers of 64 bits with a sign.

A place in a text may be named by any whole number, but one that no machine word holds is refused
where the text is scanned or a row is indexed.
-/

set_option autoImplicit false

namespace Orthography.MachineWord

def least : Int := -9223372036854775808

def greatest : Int := 9223372036854775807

def holds (n : Int) : Bool := least ≤ n && n ≤ greatest

end Orthography.MachineWord
