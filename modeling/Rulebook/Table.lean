/-!
Tables keyed by text, in ascending order of keys. The order of text is by code point, which is also
the order of its bytes. What an operation does to a table is said through `get?`.
-/

set_option autoImplicit false

namespace Rulebook

namespace Entries

def insert {α : Type} (key : String) (a : α) : List (String × α) → List (String × α)
  | [] => [(key, a)]
  | (k, b) :: rest =>
    if key < k then (key, a) :: (k, b) :: rest
    else if key = k then (key, a) :: rest
    else (k, b) :: insert key a rest

def Increasing {α : Type} (es : List (String × α)) : Prop :=
  (es.map Prod.fst).Pairwise (· < ·)

theorem mem_keys_insert {α : Type} {key k : String} {a : α} {es : List (String × α)}
    (h : k ∈ (insert key a es).map Prod.fst) : k = key ∨ k ∈ es.map Prod.fst := by
  induction es with
  | nil => simp [insert] at h; exact .inl h
  | cons e es ih =>
    obtain ⟨k', b⟩ := e
    simp only [insert] at h
    split at h
    · simpa using h
    · split at h
      · rename_i heq; subst heq; exact .inr h
      · rcases List.mem_cons.1 h with h | h
        · exact .inr (by simp [h])
        · rcases ih h with h | h
          · exact .inl h
          · exact .inr (by simp [h])

theorem lt_of_not_lt_of_ne {a b : String} (h : ¬ a < b) (hne : a ≠ b) : b < a :=
  String.not_le.1 fun hle => hne (String.le_antisymm hle (String.not_lt.1 h))

theorem Increasing.insert {α : Type} {key : String} {a : α} {es : List (String × α)}
    (h : Increasing es) : Increasing (Entries.insert key a es) := by
  induction es with
  | nil => simp [Entries.insert, Increasing]
  | cons e es ih =>
    obtain ⟨k, b⟩ := e
    have hk : ∀ x ∈ es.map Prod.fst, k < x := (List.pairwise_cons.1 h).1
    have hes : Increasing es := (List.pairwise_cons.1 h).2
    simp only [Entries.insert]
    split
    · rename_i hlt
      refine List.pairwise_cons.2 ⟨fun x hx => ?_, h⟩
      rcases List.mem_cons.1 hx with hx | hx
      · exact hx ▸ hlt
      · exact String.lt_trans hlt (hk x hx)
    · split
      · rename_i heq; subst heq; exact List.pairwise_cons.2 ⟨hk, hes⟩
      · rename_i hlt hne
        refine List.pairwise_cons.2 ⟨fun x hx => ?_, ih hes⟩
        rcases mem_keys_insert hx with hx | hx
        · exact hx ▸ lt_of_not_lt_of_ne hlt hne
        · exact hk x hx

theorem Increasing.filter {α : Type} {p : String × α → Bool} {es : List (String × α)}
    (h : Increasing es) : Increasing (es.filter p) :=
  h.sublist (List.Sublist.map _ List.filter_sublist)

end Entries

structure Table (α : Type) where
  entries : List (String × α)
  increasing : Entries.Increasing entries

namespace Table

variable {α β : Type}

def empty : Table α := ⟨[], List.Pairwise.nil⟩

instance : Inhabited (Table α) := ⟨empty⟩

instance [BEq α] : BEq (Table α) := ⟨fun s t => s.entries == t.entries⟩

@[ext] theorem ext {s t : Table α} (h : s.entries = t.entries) : s = t := by
  cases s; cases t; cases h; rfl

def size (t : Table α) : Nat := t.entries.length

def isEmpty (t : Table α) : Bool := t.entries.isEmpty

def keys (t : Table α) : List String := t.entries.map Prod.fst

def values (t : Table α) : List α := t.entries.map Prod.snd

def get? (t : Table α) (key : String) : Option α := t.entries.lookup key

def contains (t : Table α) (key : String) : Bool := (t.get? key).isSome

def insert (t : Table α) (key : String) (a : α) : Table α :=
  ⟨Entries.insert key a t.entries, t.increasing.insert⟩

def erase (t : Table α) (key : String) : Table α :=
  ⟨t.entries.filter (·.1 != key), t.increasing.filter⟩

def insertAll (t : Table α) (es : List (String × α)) : Table α :=
  es.foldl (fun t e => t.insert e.1 e.2) t

def ofList (es : List (String × α)) : Table α := empty.insertAll es

def tally (keys : List String) : Table Nat :=
  keys.foldl (fun t k => t.insert k ((t.get? k).getD 0 + 1)) empty

def distinct (keys : List String) : List String :=
  (ofList (keys.map fun k => (k, ()))).keys

end Table

end Rulebook
