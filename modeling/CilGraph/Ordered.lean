namespace CilGraph
namespace Ordered

/-!
# Lists in ascending order

Sets of names, maps from names and tables by token are kept as lists in
ascending order without repetition.  Such a list is determined by its members,
so equality of two sets is equality of two lists.  It can be searched by halving.

Names are compared character by character, by code point.  This is also the
order of their UTF-8 bytes.
-/

/-- Insert before the first element that is strictly greater.  An element that
is equal in the order keeps its place in front, so repeated insertion is
stable. -/
def insertBy {Item : Type} (less : Item -> Item -> Bool) (item : Item) : List Item -> List Item
  | [] => [item]
  | head :: tail => if less item head then item :: head :: tail else head :: insertBy less item tail

/-- Sort stably in ascending order. -/
def sortBy {Item : Type} (less : Item -> Item -> Bool) (items : List Item) : List Item :=
  items.foldl (fun sorted item => insertBy less item sorted) []

/-- Insert a name into a set of names. -/
def insertName (name : String) : List String -> List String
  | [] => [name]
  | head :: tail =>
    if name = head then head :: tail
    else if name < head then name :: head :: tail
    else head :: insertName name tail

/-- Bind a name in a map.  An earlier binding of the same name is replaced. -/
def insertEntry {Value : Type} (name : String) (value : Value) :
    List (String × Value) -> List (String × Value)
  | [] => [(name, value)]
  | (key, old) :: tail =>
    if name = key then (name, value) :: tail
    else if name < key then (name, value) :: (key, old) :: tail
    else (key, old) :: insertEntry name value tail

/-- The set of the names of a list. -/
def nameSet (names : List String) : List String :=
  names.foldl (fun known name => insertName name known) []

/-- Divide a stretch of a list until one item is left.  A function says how an item
compares to what is looked for.  The back half is kept unless it begins with an item
that is greater. -/
def narrow {Item : Type} (against : Item -> Ordering) (items : List Item) (first count : Nat)
    (some : 0 < count) (within : first + count ≤ items.length) : Fin items.length :=
  if several : 1 < count then
    let middle := first + count / 2
    have inside : middle < items.length := by omega
    if against items[middle] = .gt then
      narrow against items first (count - count / 2) (by omega) (by omega)
    else narrow against items middle (count - count / 2) (by omega) (by omega)
  else ⟨first, by omega⟩
termination_by count

/-- Search a list in ascending order for an item that is equal to what is looked for. -/
def search {Item : Type} (against : Item -> Ordering) (items : List Item) :
    Option (Fin items.length) :=
  if nonempty : 0 < items.length then
    let place := narrow against items 0 items.length nonempty (Nat.le_of_eq (Nat.zero_add _))
    if against (items.get place) = .eq then some place else none
  else none

end Ordered
end CilGraph
