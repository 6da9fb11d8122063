import WidthCheck.CType.Qualifiers

/-!
# Types

A type is a named base under layers of pointers, references, arrays and functions; the base and
every layer carry their own qualifiers. The builders keep the normal form of written types:
references collapse, and references and functions stay unqualified.
-/

namespace WidthCheck

/-- What the name at the bottom of a type stands for. -/
inductive BaseKind where
  /-- An arithmetic type or `void`, in its canonical spelling. -/
  | builtin
  /-- Any other type name, as written: a class, an enumeration, an alias, a placeholder. -/
  | named
  /-- A type parameter of a template. -/
  | templateParam
deriving DecidableEq, Repr

/-- One step from a type to a type built on it. A function keeps its return type only. -/
inductive Layer where
  | pointer
  | lvalueRef
  | rvalueRef
  /-- An array, with its bound as written. -/
  | array (bound : Option String)
  | function
deriving DecidableEq, Repr

/-- A type with the qualifiers of each of its layers. -/
inductive QualType where
  | base (kind : BaseKind) (name : String) (quals : Quals)
  | layer (layer : Layer) (inner : QualType) (quals : Quals)
deriving DecidableEq, Repr

namespace Layer

def isReference : Layer → Bool
  | .lvalueRef | .rvalueRef => true
  | _ => false

/-- Whether a type with this layer outermost can be qualified. -/
def isQualifiable : Layer → Bool
  | .lvalueRef | .rvalueRef | .function => false
  | _ => true

end Layer

namespace QualType

/-- A builtin type without qualifiers. -/
def builtin (spelling : String) : QualType := .base .builtin spelling .none

/-- A named type without qualifiers. -/
def named (name : String) : QualType := .base .named name .none

/-- A template parameter without qualifiers. -/
def templateParam (name : String) : QualType := .base .templateParam name .none

instance : Inhabited QualType := ⟨builtin "void"⟩

/-- The qualifiers of the base or of the outermost layer. -/
def quals : QualType → Quals
  | .base _ _ q => q
  | .layer _ _ q => q

/-- The same type without its outermost qualifiers. -/
def unqualified : QualType → QualType
  | .base k n _ => .base k n .none
  | .layer l t _ => .layer l t .none

def isReference : QualType → Bool
  | .layer l _ _ => l.isReference
  | .base .. => false

/-- The type a reference refers to; any other type is its own referee. -/
def referee : QualType → QualType
  | .layer .lvalueRef t _ => t
  | .layer .rvalueRef t _ => t
  | t => t

/-- Adds qualifiers to the outermost layer. References and functions cannot be qualified and stay
as they are. -/
def withQuals : QualType → Quals → QualType
  | .base k n q, r => .base k n (q.merge r)
  | .layer l t q, r => if l.isQualifiable then .layer l t (q.merge r) else .layer l t q

def pointerTo (t : QualType) : QualType := .layer .pointer t .none

/-- An lvalue reference; a reference to a reference collapses. -/
def lvalueRefTo (t : QualType) : QualType := .layer .lvalueRef t.referee .none

/-- An rvalue reference; a reference stays what it is. -/
def rvalueRefTo (t : QualType) : QualType :=
  if t.isReference then t else .layer .rvalueRef t .none

def arrayOf (t : QualType) (bound : Option String) : QualType := .layer (.array bound) t .none

def functionReturning (t : QualType) : QualType := .layer .function t .none

/-- Puts one layer on a type, collapsing references. -/
def wrap (t : QualType) : Layer → QualType
  | .pointer => t.pointerTo
  | .lvalueRef => t.lvalueRefTo
  | .rvalueRef => t.rvalueRefTo
  | .array bound => t.arrayOf bound
  | .function => t.functionReturning

/-- Whether this is a placeholder for a type still to be deduced. -/
def isAuto : QualType → Bool
  | .base .named name _ => name = "auto" ∨ name = "decltype(auto)"
  | _ => false

/-- Whether this is `void`, qualified or not. -/
def isVoid : QualType → Bool
  | .base .builtin name _ => name = "void"
  | _ => false

/-- Whether a template parameter occurs in the type. -/
def isDependent : QualType → Bool
  | .base kind _ _ => kind = .templateParam
  | .layer _ t _ => t.isDependent

/-- The type of a function parameter: arrays and functions become pointers. -/
def decay : QualType → QualType
  | .layer (.array _) t _ => t.pointerTo
  | .layer .function t _ => (functionReturning t).pointerTo
  | t => t

/-- Replaces template parameters by their arguments. The qualifiers of an occurrence are added to
the argument, and references collapse. -/
def substitute (args : String → Option QualType) : QualType → QualType
  | .base .templateParam name q =>
      match args name with
      | some arg => arg.withQuals q
      | none => .base .templateParam name q
  | .base kind name q => .base kind name q
  | .layer l t q => ((t.substitute args).wrap l).withQuals q

end QualType

end WidthCheck
