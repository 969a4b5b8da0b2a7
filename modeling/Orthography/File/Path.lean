/-
Paths, kept as the names along them.

Empty names and single dots say nothing and are dropped; a double dot stays, because what it leads
to depends on the files there are. A path without names is the place one stands at, and is written
as a dot.
-/
import Orthography.Text.Basic

set_option autoImplicit false

namespace Orthography

structure Path where
  /-- The slashes an absolute path begins with; none for a relative one. -/
  root : Text := []
  parts : List Text := []
  deriving DecidableEq, Repr

namespace Path

/-- The slashes that make a path absolute: one, or exactly two. -/
def rootOf (t : Text) : Text :=
  match (t.takeWhile (· = '/')).length with
  | 0 => []
  | 2 => ['/', '/']
  | _ => ['/']

def ofText (t : Text) : Path :=
  ⟨rootOf t, (t.split '/').filter fun part => !part.isEmpty && part != ['.']⟩

def ofString (s : String) : Path := ofText s.toList

def join (parts : List Text) : Text := List.intercalate ['/'] parts

def toText (p : Path) : Text :=
  if p.root.isEmpty && p.parts.isEmpty then ['.'] else p.root ++ join p.parts

def render (p : Path) : String := String.ofList p.toText

def name (p : Path) : Text := p.parts.getLastD []

def extend (p : Path) (parts : List Text) : Path := { p with parts := p.parts ++ parts }

/-- Does a name stand before another? Characters are compared by their code points. -/
def nameBefore (a b : Text) : Bool := List.lex a b fun c d => c.toNat < d.toNat

/-- Do names stand before others? They are compared one after the other, so that what stands below a
directory stands together. -/
def before (a b : List Text) : Bool := List.lex a b nameBefore

/-- Does a character on the path make it no path at all? -/
def hasNull (p : Path) : Bool := p.parts.any (·.contains '\x00')

end Path

end Orthography
