import ByteClass.FlagSet

/-!
# Composite classes and the names of classes

A composite class is a union of basic ones.  A named class is either basic or
composite; no two of the seventeen share a name.
-/

namespace ByteClass

inductive CompositeClass
  | alpha
  | alnum
  | xdigit
  | graph
  | print
  | utf8Multibyte
  | utf8
  deriving DecidableEq

namespace CompositeClass

def all : List CompositeClass :=
  [alpha, alnum, xdigit, graph, print, utf8Multibyte, utf8]

def name : CompositeClass → String
  | alpha => "ALPHA"
  | alnum => "ALNUM"
  | xdigit => "XDIGIT"
  | graph => "GRAPH"
  | print => "PRINT"
  | utf8Multibyte => "UTF8MBC"
  | utf8 => "UTF8"

/-- The basic classes that a composite class unites. -/
def parts : CompositeClass → List Flag
  | alpha => [.upper, .lower]
  | alnum => [.upper, .lower, .digit]
  | xdigit => [.digit, .hexLetter]
  | graph => [.punctuation, .upper, .lower, .digit]
  | print => [.punctuation, .upper, .lower, .digit, .space]
  | utf8Multibyte => [.utf8Lead, .utf8Continuation]
  | utf8 => [.ascii, .utf8Lead, .utf8Continuation]

def flagSet (composite : CompositeClass) : FlagSet :=
  .ofFlags composite.parts

/-- The composite class with exactly this name. -/
def ofName? (name : String) : Option CompositeClass :=
  all.find? fun composite => composite.name == name

@[simp]
theorem mem_all (composite : CompositeClass) : composite ∈ all := by
  cases composite <;> decide

theorem ofName?_eq_some_iff {name : String} {composite : CompositeClass} :
    ofName? name = some composite ↔ composite.name = name :=
  find?_name_eq_some_iff (by decide) (mem_all composite)

@[simp]
theorem ofName?_name (composite : CompositeClass) :
    ofName? composite.name = some composite :=
  ofName?_eq_some_iff.mpr rfl

end CompositeClass

inductive NamedClass
  | basic (flag : Flag)
  | composite (union : CompositeClass)
  deriving DecidableEq

namespace NamedClass

def all : List NamedClass :=
  Flag.all.map basic ++ CompositeClass.all.map composite

def name : NamedClass → String
  | .basic flag => flag.name
  | .composite union => union.name

def flagSet : NamedClass → FlagSet
  | .basic flag => .single flag
  | .composite union => union.flagSet

/-- The class with exactly this name, basic classes first. -/
def ofName? (name : String) : Option NamedClass :=
  ((Flag.ofName? name).map basic).or
    ((CompositeClass.ofName? name).map composite)

@[simp]
theorem mem_all (named : NamedClass) : named ∈ all := by
  cases named <;> simp [all]

@[simp]
theorem ofName?_name (named : NamedClass) :
    ofName? named.name = some named := by
  cases named with
  | basic flag => simp [ofName?, name]
  | composite union => cases union <;> decide

theorem ofName?_eq_some_iff {name : String} {named : NamedClass} :
    ofName? name = some named ↔ named.name = name := by
  constructor
  · intro found
    rw [ofName?, Option.or_eq_some_iff, Option.map_eq_some_iff,
      Option.map_eq_some_iff] at found
    rcases found with ⟨flag, basic, rfl⟩ | ⟨_, composite, among, rfl⟩
    · exact Flag.ofName?_eq_some_iff.mp basic
    · exact CompositeClass.ofName?_eq_some_iff.mp among
  · rintro rfl
    exact ofName?_name named

theorem name_inj {first second : NamedClass} :
    first.name = second.name ↔ first = second := by
  constructor
  · intro same
    rw [← Option.some_inj, ← ofName?_name first, same, ofName?_name]
  · rintro rfl
    rfl

end NamedClass

end ByteClass
