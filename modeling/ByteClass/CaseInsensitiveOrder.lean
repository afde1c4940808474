import ByteClass.CasePartner

/-!
# Comparing byte strings without regard to case

Two bytes are compared by their lower-case forms.  The order of two strings is
the order of the first pair that differs, and of the lengths if no pair does;
equality asks for equal lengths and equal pairs.  A list is sorted stably by
this order, and the first of each group of equal strings can be kept.
-/

namespace ByteClass

def compareByte (first second : UInt8) : Ordering :=
  compare (toLower first) (toLower second)

/-- The orders of the pairs, as far as the shorter string reaches. -/
def comparePairs (first second : List UInt8) : List Ordering :=
  List.zipWith compareByte first second

def compareIgnoringCase (first second : List UInt8) : Ordering :=
  ((comparePairs first second).find? Ordering.isNe).getD
    (compare first.length second.length)

def equalIgnoringCase (first second : List UInt8) : Bool :=
  first.length == second.length &&
    (first.zip second).all fun pair => toLower pair.1 == toLower pair.2

@[simp]
theorem compareIgnoringCase_nil_nil : compareIgnoringCase [] [] = .eq :=
  rfl

@[simp]
theorem compareIgnoringCase_nil_cons (byte : UInt8) (bytes : List UInt8) :
    compareIgnoringCase [] (byte :: bytes) = .lt := by
  simp [compareIgnoringCase, comparePairs, Nat.compare_eq_lt]

@[simp]
theorem compareIgnoringCase_cons_nil (byte : UInt8) (bytes : List UInt8) :
    compareIgnoringCase (byte :: bytes) [] = .gt := by
  simp [compareIgnoringCase, comparePairs, Nat.compare_eq_gt]

/-- The first pair decides, and the rest of the strings if it is a tie. -/
theorem compareIgnoringCase_cons_cons (first second : UInt8)
    (firsts seconds : List UInt8) :
    compareIgnoringCase (first :: firsts) (second :: seconds) =
      (compareByte first second).then (compareIgnoringCase firsts seconds) := by
  have lengths : compare (firsts.length + 1) (seconds.length + 1) =
      compare firsts.length seconds.length := by
    simp [Nat.compare_eq_ite_lt]
  cases order : compareByte first second <;>
    simp [compareIgnoringCase, comparePairs, order, Ordering.isNe, lengths,
      List.find?_cons]

theorem equalIgnoringCase_iff {first second : List UInt8} :
    equalIgnoringCase first second = true ↔
      first.map toLower = second.map toLower := by
  induction first generalizing second with
  | nil => cases second <;> simp [equalIgnoringCase]
  | cons byte bytes ih =>
      cases second with
      | nil => simp [equalIgnoringCase]
      | cons other others =>
          simp [equalIgnoringCase, ← ih]
          grind

def sortIgnoringCase (items : List (List UInt8)) : List (List UInt8) :=
  items.mergeSort fun first second => (compareIgnoringCase first second).isLE

/-- Drop every item that equals the last one kept. -/
def dropRepeatsOf (kept : List UInt8) : List (List UInt8) → List (List UInt8)
  | [] => []
  | item :: items =>
      if equalIgnoringCase item kept then
        dropRepeatsOf kept items
      else
        item :: dropRepeatsOf item items

/-- The first item of each run of equal ones. -/
def dropRepeats : List (List UInt8) → List (List UInt8)
  | [] => []
  | item :: items => item :: dropRepeatsOf item items

end ByteClass
