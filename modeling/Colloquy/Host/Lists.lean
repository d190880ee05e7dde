import Colloquy.Host.Arguments

/-!
# Lists of the host

A list is an object whose items can be read and changed; two references to one list see the same
items.
-/

namespace Colloquy.Host.Lists

/-- Everything that holds items. -/
def collectionName : String := "java.util.Collection"

/-- Collections with an order. -/
def listName : String := "java.util.List"

/-- Lists for access by index. -/
def arrayListName : String := "java.util.ArrayList"

/-- Lists for access at the ends. -/
def linkedListName : String := "java.util.LinkedList"

/-- A new list of a class. -/
def ofItems (className : String) (items : List Value) : HostM Value := do
  let (value, heap) := (← get).allocate className (.list items)
  set heap
  return value

/-- Reads the items of the receiver and stores those that the step leaves.  The step gives the
result of the call; a step that fails changes nothing. -/
def onItems (args : List Value) (step : List Value → HostM (Value × List Value)) :
    HostM Value := do
  let reference ← objectArgument args 0
  match (← get).list? reference with
  | some items =>
    let (result, items) ← step items
    modify (·.replace reference (.list items))
    return result
  | none => throw (reference.className ++ " is not a list")

/-- Adds an item at the end. -/
def add : Native := fun args => do
  let item ← argument args 1
  onItems args fun items => return (.bool true, items ++ [item])

/-- The number of items. -/
def size : Native := fun args =>
  onItems args fun items => return (← lengthValue items.length, items)

/-- There are no items. -/
def isEmpty : Native := fun args =>
  onItems args fun items => return (.bool items.isEmpty, items)

/-- Some item equals a value. -/
def contains : Native := fun args => do
  let item ← argument args 1
  onItems args fun items => return (.bool (items.any (·.same item)), items)

/-- Removes all items. -/
def clear : Native := fun args => onItems args fun _ => return (.null, [])

/-- Adds an item in front of the one at an index. -/
def insert : Native := fun args => do
  let index ← intArgument args 1
  let item ← argument args 2
  onItems args fun items => do
    let place ← indexBelow index (items.length + 1)
    return (.null, items.take place ++ item :: items.drop place)

/-- The item at an index. -/
def get : Native := fun args => do
  let index ← intArgument args 1
  onItems args fun items => do
    let place ← indexBelow index items.length
    return (items.getD place .null, items)

/-- Puts an item at an index; the result is the item that was there. -/
def set : Native := fun args => do
  let index ← intArgument args 1
  let item ← argument args 2
  onItems args fun items => do
    let place ← indexBelow index items.length
    return (items.getD place .null, items.set place item)

/-- Removes the item at an index, which is the result. -/
def remove : Native := fun args => do
  let index ← intArgument args 1
  onItems args fun items => do
    let place ← indexBelow index items.length
    return (items.getD place .null, items.eraseIdx place)

/-- Adds an item in front of all others. -/
def addFirst : Native := fun args => do
  let item ← argument args 1
  onItems args fun items => return (.null, item :: items)

/-- A new list without items. -/
def makeEmpty (className : String) : Native := fun _ => ofItems className []

/-- A new list without items; a capacity may be asked for but not a negative one. -/
def makeSized : Native := fun args => do
  let capacity ← intArgument args 0
  if capacity < 0 then throw ("Illegal Capacity: " ++ toString capacity)
  ofItems arrayListName []

/-- A new list with the items of another one. -/
def copy : Native := fun args => do
  let source ← objectArgument args 0
  match (← MonadState.get : Heap).list? source with
  | some items => ofItems arrayListName items
  | none => throw (source.className ++ " is not a collection")

/-- The members of collections and lists. -/
def members : List MemberSpec :=
  [instanceSpec collectionName "add" "(Object)" add,
    instanceSpec collectionName "size" "()" size,
    instanceSpec collectionName "isEmpty" "()" isEmpty,
    instanceSpec collectionName "contains" "(Object)" contains,
    instanceSpec collectionName "clear" "()" clear,
    instanceSpec listName "add" "(int, Object)" insert,
    instanceSpec listName "get" "(int)" get,
    instanceSpec listName "set" "(int, Object)" set,
    instanceSpec listName "remove" "(int)" remove,
    constructorSpec arrayListName "()" (makeEmpty arrayListName),
    constructorSpec arrayListName "(int)" makeSized,
    constructorSpec arrayListName "(Collection)" copy,
    constructorSpec linkedListName "()" (makeEmpty linkedListName),
    instanceSpec linkedListName "addFirst" "(Object)" addFirst]

end Colloquy.Host.Lists
