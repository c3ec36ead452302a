/-!
# Keyed entries

Tables are lists of key and value. Two disciplines share the one representation:

* *declared order*: `Entries.put` replaces a value where it stands or appends a new entry, and
  `Entries.withdraw` moves the last entry into the gap that a withdrawn one leaves;
* *key order*: `Entries.file` keeps the entries sorted by key, by code points, which is also
  the order of their UTF-8 octets.

Look-up is the same for both: the first entry with the key.
-/

namespace SchemaGate

/-- Values under text keys. -/
abbrev Entries (α : Type) := List (String × α)

namespace Entries

variable {α β : Type}

/-- The value of the first entry with this key. -/
def get? (key : String) : Entries α → Option α
  | [] => none
  | (k, v) :: rest => if k = key then some v else get? key rest

/-- Whether some entry has this key. -/
def has (key : String) (entries : Entries α) : Bool := (get? key entries).isSome

/-- The keys, in the order of the entries. -/
def keys (entries : Entries α) : List String := entries.map Prod.fst

/-- Replaces the value under a key in its place, or appends a new entry. -/
def put (key : String) (value : α) : Entries α → Entries α
  | [] => [(key, value)]
  | (k, v) :: rest => if k = key then (key, value) :: rest else (k, v) :: put key value rest

/-- Puts each entry of `news` in turn. -/
def putAll (news entries : Entries α) : Entries α :=
  news.foldl (fun acc e => put e.1 e.2 acc) entries

/-- Takes the entry with this key away; the last entry moves into the gap. -/
def withdraw (key : String) : Entries α → Entries α
  | [] => []
  | (k, v) :: rest =>
    if k = key then
      match rest.getLast? with
      | none => []
      | some last => last :: rest.dropLast
    else (k, v) :: withdraw key rest

/-- Inserts by key, keeping the keys sorted; a value under the same key is replaced. -/
def file (key : String) (value : α) : Entries α → Entries α
  | [] => [(key, value)]
  | (k, v) :: rest =>
    if k = key then (key, value) :: rest
    else if key < k then (key, value) :: (k, v) :: rest
    else (k, v) :: file key value rest

/-- Files each entry in turn: the sorted table of a list, in which the last value of a key
counts. -/
def fileAll (news entries : Entries α) : Entries α :=
  news.foldl (fun acc e => file e.1 e.2 acc) entries

/-- The sorted table of a list of entries. -/
def sorted (news : Entries α) : Entries α := fileAll news []

/-- The same keys with other values. -/
def mapValues (f : α → β) (entries : Entries α) : Entries β := entries.map fun e => (e.1, f e.2)

/-! ## Look-up after a change -/

theorem get?_put (key other : String) (value : α) (entries : Entries α) :
    get? other (put key value entries) =
      if key = other then some value else get? other entries := by
  induction entries with
  | nil => simp [put, get?]
  | cons e rest ih =>
    obtain ⟨k, v⟩ := e
    by_cases hk : k = key
    · subst hk; by_cases ho : k = other <;> simp [put, get?, ho]
    · by_cases ho : k = other
      · subst ho; simp [put, get?, hk, Ne.symm hk]
      · simp [put, get?, hk, ho, ih]

theorem get?_file (key other : String) (value : α) (entries : Entries α) :
    get? other (file key value entries) =
      if key = other then some value else get? other entries := by
  induction entries with
  | nil => simp [file, get?]
  | cons e rest ih =>
    obtain ⟨k, v⟩ := e
    by_cases hk : k = key
    · subst hk; by_cases ho : k = other <;> simp [file, get?, ho]
    · by_cases hlt : key < k
      · simp [file, get?, hk, hlt]
      · by_cases ho : k = other
        · subst ho; simp [file, get?, hk, hlt, Ne.symm hk]
        · simp [file, get?, hk, hlt, ho, ih]

end Entries

end SchemaGate
