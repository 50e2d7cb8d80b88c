import TasScript.Invocation.Value

/-! The ledger of an invocation: one entry for each token in the order of reading. A token was
bound to a slot or kept behind the grammar; what a match gives out is computed from the entries. -/

namespace TasScript

inductive Entry where
  | bound (t : Token) (slot : Nat) (v : Value)
  | kept (t : Token)

namespace Entry

def token : Entry → Token
  | bound t _ _ => t
  | kept t => t

def slot? : Entry → Option Nat
  | bound _ slot _ => some slot
  | kept _ => none

def extra? : Entry → Option Token
  | bound _ _ _ => none
  | kept t => some t

def write (vs : List (Option Value)) : Entry → List (Option Value)
  | bound _ slot v => vs.set slot (some v)
  | kept _ => vs

end Entry

abbrev Ledger : Type := List Entry

namespace Ledger

def tokens (g : Ledger) : List Token := g.map Entry.token

def slots (g : Ledger) : List Nat := g.filterMap Entry.slot?

def extra (g : Ledger) : List Token := g.filterMap Entry.extra?

def fill (vs : List (Option Value)) (g : Ledger) : List (Option Value) := g.foldl Entry.write vs

def ofExtra (ts : List Token) : Ledger := ts.map Entry.kept

@[simp] theorem tokens_nil : tokens [] = [] := rfl

@[simp] theorem tokens_cons (e : Entry) (g : Ledger) : tokens (e :: g) = e.token :: tokens g := rfl

@[simp] theorem tokens_append (g h : Ledger) : tokens (g ++ h) = tokens g ++ tokens h :=
  List.map_append

@[simp] theorem length_tokens (g : Ledger) : g.tokens.length = g.length := List.length_map _

@[simp] theorem slots_nil : slots [] = [] := rfl

@[simp] theorem slots_bound (t : Token) (slot : Nat) (v : Value) (g : Ledger) :
    slots (.bound t slot v :: g) = slot :: slots g := rfl

@[simp] theorem slots_kept (t : Token) (g : Ledger) : slots (.kept t :: g) = slots g := rfl

@[simp] theorem slots_append (g h : Ledger) : slots (g ++ h) = slots g ++ slots h :=
  List.filterMap_append

@[simp] theorem extra_nil : extra [] = [] := rfl

@[simp] theorem extra_bound (t : Token) (slot : Nat) (v : Value) (g : Ledger) :
    extra (.bound t slot v :: g) = extra g := rfl

@[simp] theorem extra_kept (t : Token) (g : Ledger) : extra (.kept t :: g) = t :: extra g := rfl

@[simp] theorem extra_append (g h : Ledger) : extra (g ++ h) = extra g ++ extra h :=
  List.filterMap_append

@[simp] theorem fill_nil (vs : List (Option Value)) : fill vs [] = vs := rfl

@[simp] theorem fill_cons (vs : List (Option Value)) (e : Entry) (g : Ledger) :
    fill vs (e :: g) = fill (e.write vs) g := rfl

@[simp] theorem fill_append (vs : List (Option Value)) (g h : Ledger) :
    fill vs (g ++ h) = fill (fill vs g) h := List.foldl_append

theorem mem_slots_iff {g : Ledger} {i : Nat} : i ∈ g.slots ↔ ∃ t v, .bound t i v ∈ g := by
  simp only [slots, List.mem_filterMap]
  constructor
  · rintro ⟨e, he, hi⟩
    cases e with
    | bound t slot v =>
      obtain rfl := Option.some.inj hi
      exact ⟨t, v, he⟩
    | kept t => simp [Entry.slot?] at hi
  · rintro ⟨t, v, he⟩
    exact ⟨_, he, rfl⟩

theorem token_mem_tokens {g : Ledger} {e : Entry} (h : e ∈ g) : e.token ∈ g.tokens :=
  List.mem_map_of_mem h

@[simp] theorem length_write (vs : List (Option Value)) (e : Entry) :
    (e.write vs).length = vs.length := by
  cases e <;> simp [Entry.write]

@[simp] theorem length_fill (vs : List (Option Value)) (g : Ledger) :
    (g.fill vs).length = vs.length := by
  induction g generalizing vs with
  | nil => rfl
  | cons e g ih => rw [fill_cons, ih, length_write]

theorem fill_of_notMem {g : Ledger} {i : Nat} (vs : List (Option Value)) (h : i ∉ g.slots) :
    (g.fill vs)[i]? = vs[i]? := by
  induction g generalizing vs with
  | nil => rfl
  | cons e g ih =>
    cases e with
    | bound t slot v =>
      simp only [slots_bound, List.mem_cons, not_or] at h
      rw [fill_cons, ih _ h.2, Entry.write, List.getElem?_set_ne (Ne.symm h.1)]
    | kept t => exact ih vs h

theorem fill_of_mem {g : Ledger} {t : Token} {i : Nat} {v : Value} (vs : List (Option Value))
    (hn : g.slots.Nodup) (hi : i < vs.length) (h : .bound t i v ∈ g) :
    (g.fill vs)[i]? = some (some v) := by
  induction g generalizing vs with
  | nil => simp at h
  | cons e g ih =>
    rw [fill_cons]
    rcases List.mem_cons.mp h with he | hg
    · subst e
      have hnot : i ∉ slots g := (List.nodup_cons.mp hn).1
      rw [fill_of_notMem _ hnot, Entry.write, List.getElem?_set_self hi]
    · have hn' : (slots g).Nodup := by
        cases e with
        | bound s slot w => exact (List.nodup_cons.mp hn).2
        | kept s => exact hn
      exact ih (e.write vs) hn' (by simpa using hi) hg

theorem mem_of_fill {g : Ledger} {n i : Nat} {v : Value} (hn : g.slots.Nodup)
    (h : (g.fill (List.replicate n none))[i]? = some (some v)) : ∃ t, .bound t i v ∈ g := by
  have hi : i < n := by
    have hl := (List.getElem?_eq_some_iff.mp h).1
    simpa using hl
  by_cases hm : i ∈ g.slots
  · obtain ⟨t, w, he⟩ := mem_slots_iff.mp hm
    have hw := fill_of_mem (List.replicate n none) hn (by simpa using hi) he
    obtain rfl : v = w := by simpa using h.symm.trans hw
    exact ⟨t, he⟩
  · rw [fill_of_notMem _ hm] at h
    simp [hi] at h

theorem length_slots_add_extra (g : Ledger) : g.slots.length + g.extra.length = g.length := by
  induction g with
  | nil => rfl
  | cons e g ih =>
    cases e with
    | bound t slot v => simp only [slots_bound, extra_bound, List.length_cons]; omega
    | kept t => simp only [slots_kept, extra_kept, List.length_cons]; omega

/-- The extra tokens are those that were kept, in their order. -/
theorem extra_eq_filter {g : Ledger} {keeps : Token → Bool}
    (hkept : ∀ t, .kept t ∈ g → keeps t = true)
    (hbound : ∀ t i v, .bound t i v ∈ g → keeps t = false) : g.extra = g.tokens.filter keeps := by
  induction g with
  | nil => rfl
  | cons e g ih =>
    have hrest := ih (fun t ht => hkept t (List.mem_cons_of_mem _ ht))
      (fun t i v ht => hbound t i v (List.mem_cons_of_mem _ ht))
    cases e with
    | bound t i v =>
      have ht : keeps t = false := hbound t i v List.mem_cons_self
      rw [extra_bound, tokens_cons, List.filter_cons_of_neg (by simp [Entry.token, ht]), hrest]
    | kept t =>
      have ht : keeps t = true := hkept t List.mem_cons_self
      rw [extra_kept, tokens_cons, List.filter_cons_of_pos (by simpa [Entry.token] using ht), hrest]
      rfl

theorem extra_sublist (g : Ledger) : g.extra.Sublist g.tokens := by
  induction g with
  | nil => exact .slnil
  | cons e g ih =>
    cases e with
    | bound t slot v => exact ih.cons _
    | kept t => exact ih.cons_cons _

/-- Writing to distinct empty slots fills one more of them with each write. -/
theorem countP_fill {g : Ledger} (vs : List (Option Value)) (hn : g.slots.Nodup)
    (he : ∀ i ∈ g.slots, vs[i]? = some none) :
    (g.fill vs).countP Option.isSome = vs.countP Option.isSome + g.slots.length := by
  induction g generalizing vs with
  | nil => rfl
  | cons e g ih =>
    cases e with
    | kept t => exact ih vs hn he
    | bound t slot v =>
      obtain ⟨hnot, hn'⟩ := List.nodup_cons.mp hn
      have hs : vs[slot]? = some none := he slot (by simp)
      obtain ⟨hlt, hget⟩ := List.getElem?_eq_some_iff.mp hs
      have hrest : ∀ i ∈ slots g, (vs.set slot (some v))[i]? = some none := by
        intro i hi
        have hne : slot ≠ i := fun hh => hnot (hh ▸ hi)
        rw [List.getElem?_set_ne hne]
        exact he i (by simp [hi])
      rw [fill_cons, Entry.write, ih _ hn' hrest, List.countP_set hlt, hget]
      simp only [slots_bound, List.length_cons, Option.isSome_none, Option.isSome_some, if_true,
        Bool.false_eq_true, if_false]
      omega

@[simp] theorem tokens_ofExtra (ts : List Token) : (ofExtra ts).tokens = ts := by
  induction ts with
  | nil => rfl
  | cons t ts ih => exact congrArg (t :: ·) ih

@[simp] theorem slots_ofExtra (ts : List Token) : (ofExtra ts).slots = [] := by
  induction ts with
  | nil => rfl
  | cons t ts ih => exact ih

@[simp] theorem extra_ofExtra (ts : List Token) : (ofExtra ts).extra = ts := by
  induction ts with
  | nil => rfl
  | cons t ts ih => exact congrArg (t :: ·) ih

@[simp] theorem fill_ofExtra (vs : List (Option Value)) (ts : List Token) :
    (ofExtra ts).fill vs = vs := by
  induction ts with
  | nil => rfl
  | cons t ts ih => exact ih

end Ledger

end TasScript
