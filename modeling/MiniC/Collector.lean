import MiniC.Diagnostic

/-!
# Collecting diagnostics

A collector holds diagnostics in the order in which they were recorded.  Nothing
is dropped, sorted or merged, so a problem reported twice is held twice.  What a
collector holds is read through `toList`, and each operation has one lemma that
says what it does to that list.
-/

namespace MiniC

/-- Diagnostics in the order of their recording. -/
structure Collector where
  /-- The diagnostics, oldest first. -/
  entries : Array Diagnostic
deriving DecidableEq, Repr

namespace Collector

/-- The diagnostics held, oldest first. -/
def toList (c : Collector) : List Diagnostic := c.entries.toList

/-- The collector that holds nothing. -/
def empty : Collector := ⟨#[]⟩

/-- The collector that holds the diagnostics of a list. -/
def ofList (ds : List Diagnostic) : Collector := ⟨ds.toArray⟩

/-- Record one more diagnostic. -/
def push (c : Collector) (d : Diagnostic) : Collector := ⟨c.entries.push d⟩

/-- Record all that another collector holds. -/
def append (c d : Collector) : Collector := ⟨c.entries ++ d.entries⟩

instance : Append Collector := ⟨append⟩

/-- How many diagnostics are held. -/
def size (c : Collector) : Nat := c.entries.size

/-- Tells the collector that holds nothing. -/
def isEmpty (c : Collector) : Bool := c.entries.isEmpty

/-- The diagnostic at a position, counted from zero. -/
def get? (c : Collector) (i : Nat) : Option Diagnostic := c.entries[i]?

/-! ## What the operations do to the list -/

/-- A collector is determined by the list it holds. -/
theorem toList_inj {c d : Collector} : c.toList = d.toList ↔ c = d := by
  cases c; cases d; simp [toList]

@[simp] theorem toList_empty : empty.toList = [] := rfl

@[simp] theorem toList_ofList (ds : List Diagnostic) : (ofList ds).toList = ds := by
  simp [toList, ofList]

@[simp] theorem toList_push (c : Collector) (d : Diagnostic) :
    (c.push d).toList = c.toList ++ [d] := by
  simp [toList, push]

@[simp] theorem toList_append (c d : Collector) : (c ++ d).toList = c.toList ++ d.toList := by
  show (c.append d).toList = _
  simp [toList, append]

theorem size_eq_length (c : Collector) : c.size = c.toList.length := by
  simp [size, toList]

theorem isEmpty_iff (c : Collector) : c.isEmpty = true ↔ c.toList = [] := by
  simp [isEmpty, toList]

theorem get?_eq (c : Collector) (i : Nat) : c.get? i = c.toList[i]? := by
  simp [get?, toList]

end Collector

end MiniC
