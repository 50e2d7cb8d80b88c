import TasScript.Data.List
import TasScript.Grammar.Form
import TasScript.Proofs.Judgement

/-! The bound values under the keys of their slots. A key may stand on several slots: its value
is that of the last of them that is bound, while its place is the first slot that has it, bound
or not. -/

namespace TasScript

/-- Slot `i` of the grammar has the key. -/
def Schema.Keyed (s : Schema) (i : Nat) (key : String) : Prop :=
  ∃ slot, s.slots[i]? = some slot ∧ slot.key = some key

/-- The place of a key is the first of its slots. -/
theorem Schema.keyIndex?_eq_some_iff {s : Schema} {key : String} {i : Nat} :
    s.keyIndex? key = some i ↔ s.Keyed i key ∧ ∀ j < i, ¬ s.Keyed j key := by
  have hkeyed (j : Nat) (hj : j < s.slots.length) :
      s.Keyed j key ↔ (s.slots[j].key == some key) = true := by
    simp [Keyed, List.getElem?_eq_getElem hj]
  rw [keyIndex?, List.findIdx?_eq_some_iff_getElem]
  constructor
  · rintro ⟨hi, hkey, hfirst⟩
    refine ⟨(hkeyed i hi).mpr hkey, fun j hj => ?_⟩
    rw [hkeyed j (by omega)]
    exact hfirst j hj
  · rintro ⟨hi, hfirst⟩
    obtain ⟨slot, hslot, -⟩ := id hi
    have hlt := (List.getElem?_eq_some_iff.mp hslot).1
    refine ⟨hlt, (hkeyed i hlt).mp hi, fun j hj => ?_⟩
    rw [← hkeyed j (by omega)]
    exact hfirst j hj

namespace Match

/-- What a slot with its value tells about a key. -/
def cell? (key : String) (c : Slot × Option Value) : Option Value :=
  if c.1.key = some key then c.2 else none

def store (es : Entries Value) (c : Slot × Option Value) : Entries Value :=
  match c.1.key, c.2 with
  | some key, some v => es.set key v
  | _, _ => es

theorem get?_store (es : Entries Value) (c : Slot × Option Value) (key : String) :
    (store es c).get? key = (cell? key c).or (es.get? key) := by
  obtain ⟨slot, o⟩ := c
  unfold store cell?
  cases hk : slot.key with
  | none => simp
  | some k =>
    cases o with
    | none => simp
    | some v =>
      by_cases heq : k = key
      · simp [heq, Entries.get?_set_self]
      · simp [heq, Entries.get?_set_other v es (Ne.symm heq)]

theorem get?_foldl_store (es : Entries Value) (cells : List (Slot × Option Value)) (key : String) :
    Entries.get? key (cells.foldl store es) =
      (cells.reverse.findSome? (cell? key)).or (es.get? key) := by
  induction cells generalizing es with
  | nil => rfl
  | cons c cells ih =>
    rw [List.foldl_cons, ih, get?_store, List.reverse_cons, List.findSome?_append, Option.or_assoc,
      List.findSome?_cons_eq_or, List.findSome?_nil, Option.or_none]

theorem nodup_foldl_store (cells : List (Slot × Option Value)) {es : Entries Value}
    (h : (Entries.names es).Nodup) : (Entries.names (cells.foldl store es)).Nodup := by
  induction cells generalizing es with
  | nil => exact h
  | cons c cells ih =>
    rw [List.foldl_cons]
    apply ih
    unfold store
    split
    · exact Entries.nodup_names_set h
    · exact h

variable {m : Match} {s : Schema} {key : String}

theorem named_eq_foldl (hs : m.schema = some s) :
    m.named = (s.slots.zip m.values).foldl store [] := by
  unfold named
  rw [hs]
  rfl

theorem get?_named (hs : m.schema = some s) (key : String) :
    m.named.get? key = (s.slots.zip m.values).reverse.findSome? (cell? key) := by
  rw [named_eq_foldl hs, get?_foldl_store]
  exact Option.or_none

theorem nodup_names_named (hs : m.schema = some s) : (Entries.names m.named).Nodup := by
  rw [named_eq_foldl hs]
  exact nodup_foldl_store _ List.nodup_nil

/-- A slot tells something about a key where it has that key and holds a value. -/
theorem bind_cell?_eq_some_iff {i : Nat} {v : Value} :
    (s.slots.zip m.values)[i]?.bind (cell? key) = some v ↔
      s.Keyed i key ∧ m.valueAt? i = some v := by
  rw [valueAt?_eq_some_iff]
  constructor
  · intro h
    obtain ⟨⟨slot, o⟩, hc, hv⟩ := Option.bind_eq_some_iff.mp h
    obtain ⟨hslot, ho⟩ := List.getElem?_zip_eq_some.mp hc
    unfold cell? at hv
    split at hv
    · rename_i hkey
      obtain rfl : o = some v := hv
      exact ⟨⟨slot, hslot, hkey⟩, ho⟩
    · cases hv
  · rintro ⟨⟨slot, hslot, hkey⟩, hv⟩
    have hc : (s.slots.zip m.values)[i]? = some (slot, some v) :=
      List.getElem?_zip_eq_some.mpr ⟨hslot, hv⟩
    rw [hc, Option.bind_some, cell?, if_pos hkey]

theorem bind_cell?_eq_none_iff {i : Nat} :
    (s.slots.zip m.values)[i]?.bind (cell? key) = none ↔
      (s.Keyed i key → m.valueAt? i = none) := by
  constructor
  · intro hnone hkey
    cases hv : m.valueAt? i with
    | none => rfl
    | some v => simp [bind_cell?_eq_some_iff.mpr ⟨hkey, hv⟩] at hnone
  · intro h
    cases hb : (s.slots.zip m.values)[i]?.bind (cell? key) with
    | none => rfl
    | some v =>
      obtain ⟨hkey, hv⟩ := bind_cell?_eq_some_iff.mp hb
      simp [h hkey] at hv

/-- The value of a key is that of the last of its slots that is bound. -/
theorem get?_named_eq_some_iff (hs : m.schema = some s) {v : Value} :
    m.named.get? key = some v ↔
      ∃ i : Nat, s.Keyed i key ∧ m.valueAt? i = some v ∧
        ∀ j : Nat, i < j → s.Keyed j key → m.valueAt? j = none := by
  simp only [get?_named hs, List.findSome?_reverse_eq_some_iff, bind_cell?_eq_some_iff,
    bind_cell?_eq_none_iff, and_assoc]

theorem mem_named_iff (hs : m.schema = some s) {v : Value} :
    (key, v) ∈ m.named ↔ m.named.get? key = some v :=
  ⟨Entries.get?_of_mem (nodup_names_named hs), Entries.mem_of_get?⟩

theorem get?_named_eq_none_iff (hs : m.schema = some s) :
    m.named.get? key = none ↔ ∀ i : Nat, s.Keyed i key → m.valueAt? i = none := by
  simp only [get?_named hs, List.findSome?_reverse_eq_none_iff, bind_cell?_eq_none_iff]

theorem exists_mem_named (hs : m.schema = some s) {i : Nat} {v : Value} (hkey : s.Keyed i key)
    (hv : m.valueAt? i = some v) : ∃ w, (key, w) ∈ m.named := by
  cases hget : m.named.get? key with
  | none => simp [get?_named_eq_none_iff hs |>.mp hget i hkey] at hv
  | some w => exact ⟨w, (mem_named_iff hs).mpr hget⟩

end Match

namespace Schema

/-- Each key that is bound has one entry, with the value of the last of its slots that is bound, and
there are no other entries; the place of the key is the first of its slots. So value and place
belong to one slot wherever no other slot has its key. -/
theorem named_of_keys (s : Schema) (tokens : List Token) (name : Option Token) :
    let m := s.matchTokens tokens name
    (Entries.names m.named).Nodup ∧
      (∀ (key : String) (v : Value), (key, v) ∈ m.named ↔
        ∃ i : Nat, s.Keyed i key ∧ m.valueAt? i = some v ∧
          ∀ j : Nat, i < j → s.Keyed j key → m.valueAt? j = none) ∧
      (∀ (key : String) (i : Nat), s.keyIndex? key = some i ↔
        s.Keyed i key ∧ ∀ j < i, ¬ s.Keyed j key) ∧
      ∀ (i : Nat) (key : String) (v : Value), s.Keyed i key → m.valueAt? i = some v →
        (∃ w, (key, w) ∈ m.named) ∧
        ((∀ j : Nat, i < j → s.Keyed j key → m.valueAt? j = none) →
          m.named.get? key = some v) ∧
        (s.keyIndex? key = some i ↔ ∀ j < i, ¬ s.Keyed j key) := by
  intro m
  have hs : m.schema = some s := s.matchTokens_schema tokens name
  refine ⟨Match.nodup_names_named hs, fun key v => ?_, fun key i => keyIndex?_eq_some_iff,
    fun i key v hkey hv => ⟨Match.exists_mem_named hs hkey hv, fun hlast => ?_, ?_⟩⟩
  · rw [Match.mem_named_iff hs, Match.get?_named_eq_some_iff hs]
  · exact (Match.get?_named_eq_some_iff hs).mpr ⟨i, hkey, hv, hlast⟩
  · rw [keyIndex?_eq_some_iff]
    exact and_iff_right hkey

/-- Two slots may share a key. Both are bound here; the entry of the key has lost the first value,
and the place of the key is not the slot whose value it kept. -/
theorem key_on_two_slots :
    let s : Schema :=
      { name := "mark", fixedOrder := true, hasOff := false, registersActiveState := false
        arguments := [.leaf (.number "x"), .leaf (.number "x")], expectsArguments := true
        priority := 0 }
    let m := s.matchTokens [⟨.number, "1", ⟨0, 5, 6⟩⟩, ⟨.number, "2", ⟨0, 7, 8⟩⟩] none
    s.Accepted ∧ m.succeeded = true ∧ s.Keyed 0 "x" ∧ s.Keyed 1 "x" ∧
      m.valueAt? 0 = some (.amount (.real 1)) ∧ m.valueAt? 1 = some (.amount (.real 2)) ∧
      m.named = [("x", .amount (.real 2))] ∧ s.keyIndex? "x" = some 0 ∧
      ¬ ∀ (i : Nat) (key : String) (v : Value), s.Keyed i key → m.valueAt? i = some v →
        m.named.get? key = some v ∧ s.keyIndex? key = some i := by
  intro s m
  have hfirst : s.Keyed 0 "x" := ⟨_, rfl, rfl⟩
  have hsecond : s.Keyed 1 "x" := ⟨_, rfl, rfl⟩
  have hvalue : m.valueAt? 1 = some (.amount (.real 2)) := by decide +kernel
  have hplace : s.keyIndex? "x" = some 0 := by decide
  refine ⟨by decide, by decide +kernel, hfirst, hsecond, by decide +kernel, hvalue,
    by decide +kernel, hplace, fun hclaim => ?_⟩
  have hsame := (hclaim 1 "x" _ hsecond hvalue).2
  simp [hplace] at hsame

end Schema

end TasScript
