import ByteClass.ByteClassification

/-!
# Scans and summaries of byte strings

A scan marks the positions of a byte string at which a test holds.  A summary
collects the classes that some byte carries, or those that every byte carries.
-/

namespace ByteClass

/-- One mark for each byte, set where a test holds. -/
structure Scan where
  marks : List Bool
  deriving DecidableEq

namespace Scan

def run (test : UInt8 → Bool) (bytes : List UInt8) : Scan :=
  ⟨bytes.map test⟩

def count (scan : Scan) : Nat :=
  scan.marks.count true

/-- The first marked position. -/
def first? (scan : Scan) : Option Nat :=
  scan.marks.findIdx? id

/-- The last marked position. -/
def last? (scan : Scan) : Option Nat :=
  (scan.marks.reverse.findIdx? id).map fun distance =>
    scan.marks.length - 1 - distance

/-- The first position without a mark. -/
def firstUnmarked? (scan : Scan) : Option Nat :=
  scan.marks.findIdx? (!·)

/-- The marks as ones and zeros. -/
def text (scan : Scan) : String :=
  String.ofList (scan.marks.map fun mark => if mark then '1' else '0')

end Scan

/-- The classes that some byte carries. -/
def classesOfAny (bytes : List UInt8) : FlagSet :=
  bytes.foldl (fun classes byte => classes ∪ lookUpClasses byte) ∅

/-- The basic classes that every byte carries. -/
def classesOfAll (bytes : List UInt8) : FlagSet :=
  bytes.foldl (fun classes byte => classes ∩ lookUpClasses byte) .known

/-- Uniting keeps what the start holds and adds what some byte carries. -/
theorem holds_foldl_union (start : FlagSet) (bytes : List UInt8)
    (position : Nat) :
    (bytes.foldl (fun classes byte => classes ∪ lookUpClasses byte)
        start).holds position =
      (start.holds position ||
        bytes.any fun byte => (classesOf byte).holds position) := by
  induction bytes generalizing start with
  | nil => simp
  | cons byte bytes ih =>
      rw [List.foldl_cons, ih, List.any_cons, FlagSet.holds_union,
        lookUpClasses_eq, Bool.or_assoc]

/-- Intersecting keeps what the start holds and every byte carries. -/
theorem holds_foldl_inter (start : FlagSet) (bytes : List UInt8)
    (position : Nat) :
    (bytes.foldl (fun classes byte => classes ∩ lookUpClasses byte)
        start).holds position =
      (start.holds position &&
        bytes.all fun byte => (classesOf byte).holds position) := by
  induction bytes generalizing start with
  | nil => simp
  | cons byte bytes ih =>
      rw [List.foldl_cons, ih, List.all_cons, FlagSet.holds_inter,
        lookUpClasses_eq, Bool.and_assoc]

@[simp]
theorem holds_classesOfAny (bytes : List UInt8) (position : Nat) :
    (classesOfAny bytes).holds position =
      bytes.any fun byte => (classesOf byte).holds position := by
  rw [classesOfAny, holds_foldl_union, FlagSet.holds_empty, Bool.false_or]

@[simp]
theorem holds_classesOfAll (bytes : List UInt8) (position : Nat) :
    (classesOfAll bytes).holds position =
      (decide (position < 10) &&
        bytes.all fun byte => (classesOf byte).holds position) := by
  rw [classesOfAll, holds_foldl_inter, FlagSet.holds_known]

end ByteClass
