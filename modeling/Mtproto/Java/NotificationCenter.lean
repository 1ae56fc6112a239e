import Mtproto.Lib.OrderedMap
import Mtproto.Lib.Program

/-!
# Notifications

`NotificationCenter.java`: observers may come, go and post again while they are being notified.  A
callback is whatever happens between its call and the next step of the loop that made it, so a run
is a sequence of inputs over the stack of the loops (`Frame`).  Nothing adds to `delayedPosts`, and
the allowed notifications decide nothing.
-/

namespace Mtproto.Java

open Lib

variable {α : Type} [DecidableEq α]

/-- A loop of `postNotificationNameInternal`: whether `objects` is null, its counter, and whom it
has called. -/
structure Frame (α : Type) where
  id : ℕ
  isNull : Bool
  a : ℕ := 0
  called : List α := []

/-- The last three fields are a record: the observers when the outermost loop began, and what was
asked for since. -/
structure NotificationCenter (α : Type) where
  observers : OrderedMap ℕ (List α) := []
  removeAfterBroadcast : OrderedMap ℕ (List α) := []
  addAfterBroadcast : OrderedMap ℕ (List α) := []
  broadcasting : ℕ := 0
  frames : List (Frame α) := []
  registered : OrderedMap ℕ (List α) := []
  removed : List (ℕ × α) := []
  added : List (ℕ × α) := []

/-- The list of a `SparseArray`, empty for null. -/
def entries (m : OrderedMap ℕ (List α)) (id : ℕ) : List α := (m.find id).getD []

namespace NotificationCenter

variable (c : NotificationCenter α)

def addObserver (observer : α) (id : ℕ) : NotificationCenter α :=
  if c.broadcasting ≠ 0 then
    { c with
      addAfterBroadcast :=
        c.addAfterBroadcast.insert id (entries c.addAfterBroadcast id ++ [observer])
      added := c.added ++ [(id, observer)] }
  else
    let objects := entries c.observers id
    { c with
      observers :=
        c.observers.insert id (if observer ∈ objects then objects else objects ++ [observer]) }

def removeObserver (observer : α) (id : ℕ) : NotificationCenter α :=
  if c.broadcasting ≠ 0 then
    { c with
      removeAfterBroadcast :=
        c.removeAfterBroadcast.insert id (entries c.removeAfterBroadcast id ++ [observer])
      removed := c.removed ++ [(id, observer)] }
  else
    match c.observers.find id with
    | some objects => { c with observers := c.observers.insert id (objects.erase observer) }
    | none => c

/-- The beginning of `postNotificationNameInternal`. -/
def postNotificationName (id : ℕ) : NotificationCenter α :=
  { c with
    broadcasting := c.broadcasting + 1
    frames := ⟨id, (c.observers.find id).isNone, 0, []⟩ :: c.frames
    registered := if c.broadcasting = 0 then c.observers else c.registered
    removed := if c.broadcasting = 0 then [] else c.removed
    added := if c.broadcasting = 0 then [] else c.added }

/-- The list that a loop reads. -/
def objects (f : Frame α) : List α := if f.isNull then [] else entries c.observers f.id

/-- What waited for the end of the outermost loop. -/
def afterBroadcast : NotificationCenter α :=
  let c := c.removeAfterBroadcast.foldl (fun c entry =>
    entry.2.foldl (fun c o => c.removeObserver o entry.1) c) c
  let c := { c with removeAfterBroadcast := [] }
  let c := c.addAfterBroadcast.foldl (fun c entry =>
    entry.2.foldl (fun c o => c.addObserver o entry.1) c) c
  { c with addAfterBroadcast := [] }

/-- The innermost loop calls `didReceivedNotification` of the next observer. -/
def notify : Option (NotificationCenter α) :=
  match c.frames with
  | [] => none
  | f :: frames => (c.objects f)[f.a]?.map fun obj =>
      { c with frames := { f with a := f.a + 1, called := f.called ++ [obj] } :: frames }

/-- The end of `postNotificationNameInternal`. -/
def finish : Option (NotificationCenter α) :=
  match c.frames with
  | [] => none
  | f :: frames =>
      if (c.objects f).length ≤ f.a then
        let c := { c with frames, broadcasting := c.broadcasting - 1 }
        some (if c.broadcasting = 0 then c.afterBroadcast else c)
      else none

end NotificationCenter

/-! ## Runs -/

inductive Call (α : Type) where
  | addObserver (observer : α) (id : ℕ)
  | removeObserver (observer : α) (id : ℕ)
  | postNotificationName (id : ℕ)
  | notify
  | finish

def Call.step : Call α → Program (NotificationCenter α) Unit
  | .addObserver observer id, c => some ((), c.addObserver observer id)
  | .removeObserver observer id, c => some ((), c.removeObserver observer id)
  | .postNotificationName id, c => some ((), c.postNotificationName id)
  | .notify, c => c.notify.map ((), ·)
  | .finish, c => c.finish.map ((), ·)

end Mtproto.Java
