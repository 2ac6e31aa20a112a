import HostScript.Text.CodePoint

/-!
# Dictionaries in order of insertion

Values under texts, listed in the order in which their keys first came in. Writing to a key that is
there keeps its place (`keys_put`), and reading sees the last write (`get?_put_self`,
`get?_put_of_ne`).
-/

namespace HostScript

/-- Entries in the order in which their keys came in. -/
structure Dict (α : Type) where
  entries : List (Text × α)

namespace Dict

variable {α β : Type}

/-- The dictionary without entries. -/
def empty : Dict α := ⟨[]⟩

instance : Inhabited (Dict α) := ⟨empty⟩

/-- The keys in order. -/
def keys (d : Dict α) : List Text := d.entries.map (·.1)

/-- The value of the first entry of a key. -/
def findEntry (key : Text) : List (Text × α) → Option α
  | [] => none
  | (k, v) :: rest => if k = key then some v else findEntry key rest

/-- The value under a key. -/
def get? (d : Dict α) (key : Text) : Option α := findEntry key d.entries

/-- Whether there is a value under a key. -/
def has (d : Dict α) (key : Text) : Bool := (d.get? key).isSome

/-- Writes into a list of entries: over the first entry of the key, or behind all entries. -/
def putEntry (key : Text) (value : α) : List (Text × α) → List (Text × α)
  | [] => [(key, value)]
  | (k, v) :: rest =>
    if k = key then (k, value) :: rest else (k, v) :: putEntry key value rest

/-- Writes a value under a key. -/
def put (d : Dict α) (key : Text) (value : α) : Dict α := ⟨putEntry key value d.entries⟩

/-- Writes a value under a key unless there is one. -/
def putAbsent (d : Dict α) (key : Text) (value : α) : Dict α :=
  if d.has key then d else d.put key value

/-- Adds the entries of `e` whose keys are not in `d`, in their order. -/
def merge (d e : Dict α) : Dict α := e.entries.foldl (fun d entry => d.putAbsent entry.1 entry.2) d

/-- The dictionary after writing entries one after another. -/
def ofList (entries : List (Text × α)) : Dict α :=
  entries.foldl (fun d entry => d.put entry.1 entry.2) empty

/-- Applies a function to all values. -/
def map (f : α → β) (d : Dict α) : Dict β := ⟨d.entries.map fun entry => (entry.1, f entry.2)⟩

@[simp] theorem get?_empty (key : Text) : (empty : Dict α).get? key = none := rfl

theorem findEntry_putEntry (key other : Text) (value : α) (entries : List (Text × α)) :
    findEntry other (putEntry key value entries) =
      if other = key then some value else findEntry other entries := by
  induction entries with
  | nil => by_cases h : key = other <;> simp [putEntry, findEntry, h, eq_comm]
  | cons entry rest ih => grind [putEntry, findEntry]

@[simp] theorem get?_put_self (d : Dict α) (key : Text) (value : α) :
    (d.put key value).get? key = some value := by
  simp [get?, put, findEntry_putEntry]

theorem get?_put_of_ne (d : Dict α) {key other : Text} (value : α) (h : other ≠ key) :
    (d.put key value).get? other = d.get? other := by
  simp [get?, put, findEntry_putEntry, h]

theorem has_iff_mem_keys (d : Dict α) (key : Text) : d.has key = true ↔ key ∈ d.keys := by
  obtain ⟨entries⟩ := d
  simp only [has, get?, keys]
  induction entries with
  | nil => simp [findEntry]
  | cons entry rest ih =>
    obtain ⟨k, v⟩ := entry
    by_cases h : k = key
    · simp [findEntry, h]
    · simp only [findEntry, if_neg h, ih, List.map_cons, List.mem_cons]
      exact ⟨.inr, fun hk => hk.resolve_left fun e => h e.symm⟩

theorem mem_of_get? {d : Dict α} {key : Text} {value : α} (h : d.get? key = some value) :
    (key, value) ∈ d.entries := by
  obtain ⟨entries⟩ := d
  simp only [get?] at h
  induction entries with
  | nil => simp [findEntry] at h
  | cons entry rest ih => grind [findEntry]

theorem mem_putEntry {key : Text} {value : α} {entries : List (Text × α)} {entry : Text × α}
    (h : entry ∈ putEntry key value entries) : entry = (key, value) ∨ entry ∈ entries := by
  induction entries with
  | nil => simpa [putEntry] using h
  | cons first rest ih => grind [putEntry]

/-- Writing brings in no entry but the one that is written. -/
theorem mem_put {d : Dict α} {key : Text} {value : α} {entry : Text × α}
    (h : entry ∈ (d.put key value).entries) : entry = (key, value) ∨ entry ∈ d.entries :=
  mem_putEntry h

theorem mem_putAbsent {d : Dict α} {key : Text} {value : α} {entry : Text × α}
    (h : entry ∈ (d.putAbsent key value).entries) : entry = (key, value) ∨ entry ∈ d.entries := by
  unfold putAbsent at h
  split at h
  · exact .inr h
  · exact mem_put h

/-- Merging brings in no entries but those of the second dictionary. -/
theorem mem_merge {d e : Dict α} {entry : Text × α} (h : entry ∈ (d.merge e).entries) :
    entry ∈ d.entries ∨ entry ∈ e.entries := by
  obtain ⟨added⟩ := e
  simp only [merge] at h ⊢
  induction added generalizing d with
  | nil => exact .inl h
  | cons first rest ih =>
    rcases ih h with h | h
    · rcases mem_putAbsent h with rfl | h
      · exact .inr (by simp)
      · exact .inl h
    · exact .inr (by simp [h])

theorem mem_ofList {entries : List (Text × α)} {entry : Text × α}
    (h : entry ∈ (ofList entries).entries) : entry ∈ entries := by
  suffices ∀ d : Dict α, entry ∈ (entries.foldl (fun d e => d.put e.1 e.2) d).entries →
      entry ∈ d.entries ∨ entry ∈ entries by
    simpa [empty] using this empty h
  clear h
  induction entries with
  | nil => exact fun d h => .inl h
  | cons first rest ih =>
    intro d h
    rcases ih _ h with h | h
    · rcases mem_put h with rfl | h
      · exact .inr (by simp)
      · exact .inl h
    · exact .inr (by simp [h])

/-- Writing keeps the keys in their order and puts a new key last. -/
theorem keys_put (d : Dict α) (key : Text) (value : α) :
    (d.put key value).keys = if key ∈ d.keys then d.keys else d.keys ++ [key] := by
  obtain ⟨entries⟩ := d
  simp only [put, keys]
  induction entries with
  | nil => simp [putEntry]
  | cons entry rest ih => grind [putEntry]

theorem putEntry_of_not_mem {key : Text} {value : α} {entries : List (Text × α)}
    (h : key ∉ entries.map (·.1)) : putEntry key value entries = entries ++ [(key, value)] := by
  induction entries with
  | nil => rfl
  | cons entry rest ih => grind [putEntry]

/-- Entries with different keys stay as they are. -/
theorem ofList_of_nodup {entries : List (Text × α)} (h : (entries.map (·.1)).Nodup) :
    ofList entries = ⟨entries⟩ := by
  suffices hfold : ∀ before : List (Text × α), ((before ++ entries).map (·.1)).Nodup →
      entries.foldl (fun d entry => d.put entry.1 entry.2) ⟨before⟩ =
        (⟨before ++ entries⟩ : Dict α) from hfold [] h
  clear h
  induction entries with
  | nil => simp
  | cons entry rest ih =>
    intro before h
    have hnew : entry.1 ∉ before.map (·.1) := by
      rw [List.map_append, List.map_cons, List.nodup_append] at h
      exact fun hmem => h.2.2 _ hmem _ List.mem_cons_self rfl
    rw [List.foldl_cons, put, putEntry_of_not_mem hnew, ih _ (by simpa using h)]
    simp

/-- No two entries that were written one after another have the same key. -/
theorem nodup_keys_ofList (entries : List (Text × α)) : (ofList entries).keys.Nodup := by
  suffices hfold : ∀ d : Dict α, d.keys.Nodup →
      (entries.foldl (fun d entry => d.put entry.1 entry.2) d).keys.Nodup from
    hfold empty List.nodup_nil
  induction entries with
  | nil => exact fun d h => h
  | cons entry rest ih =>
    intro d h
    refine ih _ ?_
    rw [keys_put]
    split
    · exact h
    · next hnew =>
      refine List.nodup_append.mpr ⟨h, by simp, ?_⟩
      rintro key hkey _ hmem rfl
      exact hnew (List.mem_singleton.mp hmem ▸ hkey)

end Dict

end HostScript
