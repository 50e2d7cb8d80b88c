import TasScript.Grammar.Slot

/-! Grammars as trees of slots. A node's children follow it where it matched; its alternative is
taken instead where it did not. Slots are numbered in pre-order: the node, its children, then its
alternative. -/

namespace TasScript

inductive Node where
  | mk (slot : Slot) (children otherwise : List Node)

namespace Node

def slot : Node → Slot
  | mk s _ _ => s

def children : Node → List Node
  | mk _ cs _ => cs

def otherwise : Node → List Node
  | mk _ _ os => os

def leaf (s : Slot) : Node := mk s [] []

mutual

/-- The number of slots of a node, itself included. -/
def size : Node → Nat
  | mk _ cs os => 1 + slotCount cs + slotCount os

def slotCount : List Node → Nat
  | [] => 0
  | n :: ns => size n + slotCount ns

end

mutual

def preorder : Node → List Slot
  | mk s cs os => s :: (slots cs ++ slots os)

/-- The slots of a list of nodes in pre-order. -/
def slots : List Node → List Slot
  | [] => []
  | n :: ns => preorder n ++ slots ns

end

/-- Each node with the number of its slot, the first at `base`. -/
def placed (base : Nat) : List Node → List (Node × Nat)
  | [] => []
  | n :: ns => (n, base) :: placed (base + n.size) ns

mutual

/-- A node's own rules are checked once everything below it is sound. -/
def faults : Node → List Fault
  | mk s cs os =>
    let inner := faultsIn "children" 0 cs ++ faultsIn "otherwise_children" 0 os
    if inner.isEmpty then s.shapeCause?.toList.map Fault.ofCause else inner

def faultsIn (field : String) (index : Nat) : List Node → List Fault
  | [] => []
  | n :: ns =>
    (faults n).map (Fault.under [.field field, .item index]) ++ faultsIn field (index + 1) ns

end

mutual

theorem length_preorder : (n : Node) → n.preorder.length = n.size
  | mk _ cs os => by
    simp only [preorder, size, List.length_cons, List.length_append, length_slots cs,
      length_slots os]
    omega

theorem length_slots : (ns : List Node) → (slots ns).length = slotCount ns
  | [] => by simp [slots, slotCount]
  | n :: ns => by simp [slots, slotCount, length_preorder n, length_slots ns]

end

end Node

end TasScript
