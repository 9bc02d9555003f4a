import Mathlib.Algebra.BigOperators.Group.List.Basic
import Mathlib.Data.List.Nodup
import Mathlib.Tactic.Abel

/-!
# Insertion-ordered dictionaries

A dictionary as a scripting language keeps it: a list of key/value pairs without
repeated keys, in the order in which the keys were first written.  Writing a key
that is present replaces its value in place; writing a new key appends it.

`get?_set` is the read-after-write law and `sum_set` says what a write does to a
sum over all entries.  `tally` reads an additive dictionary off an arbitrary list
of entries, so that a loop over the entries of one dictionary that adds into
another can be stated without mentioning the order of the entries.
-/

namespace EveBuild

/-- Key/value pairs in insertion order, each key once. -/
structure Dict (K V : Type*) where
  entries : List (K × V)
  nodup_keys : (entries.map Prod.fst).Nodup

namespace Dict

variable {K V W : Type*}

/-- The keys, in insertion order. -/
def keys (d : Dict K V) : List K := d.entries.map Prod.fst

/-- The values, in the order of their keys. -/
def values (d : Dict K V) : List V := d.entries.map Prod.snd

/-- The empty dictionary. -/
def empty : Dict K V := ⟨[], List.nodup_nil⟩

/-- The dictionary with one entry. -/
def single (k : K) (v : V) : Dict K V := ⟨[(k, v)], List.nodup_singleton k⟩

@[simp] theorem entries_empty : (empty : Dict K V).entries = [] := rfl

@[simp] theorem entries_single (k : K) (v : V) : (single k v).entries = [(k, v)] := rfl

@[simp] theorem keys_empty : (empty : Dict K V).keys = [] := rfl

@[ext] theorem ext {d e : Dict K V} (h : d.entries = e.entries) : d = e := by
  cases d
  cases e
  simp_all

theorem mem_keys_of_mem {d : Dict K V} {k : K} {v : V} (h : (k, v) ∈ d.entries) : k ∈ d.keys :=
  List.mem_map_of_mem h

theorem eq_of_mem_entries {d : Dict K V} {k : K} {v w : V} (hv : (k, v) ∈ d.entries)
    (hw : (k, w) ∈ d.entries) : v = w := by
  have h := List.inj_on_of_nodup_map d.nodup_keys hv hw rfl
  exact congrArg Prod.snd h

variable [DecidableEq K]

/-- `d.get(k)`. -/
def get? (d : Dict K V) (k : K) : Option V :=
  (d.entries.find? fun entry => entry.1 = k).map Prod.snd

/-- `d.get(k, default)`. -/
def getD (d : Dict K V) (k : K) (default : V) : V := (d.get? k).getD default

/-- `d[k] = v`. -/
def set (d : Dict K V) (k : K) (v : V) : Dict K V :=
  if hk : k ∈ d.keys then
    ⟨d.entries.map fun entry => if entry.1 = k then (k, v) else entry, by
      rw [List.map_map]
      convert d.nodup_keys using 2
      funext entry
      by_cases h : entry.1 = k <;> simp [h]⟩
  else
    ⟨d.entries ++ [(k, v)], by
      rw [List.map_append, List.nodup_append]
      refine ⟨d.nodup_keys, List.nodup_singleton k, ?_⟩
      intro a ha b hb heq
      rw [List.map_cons, List.map_nil, List.mem_singleton] at hb
      rw [heq, hb] at ha
      exact hk ha⟩

/-- `d[k] = d.get(k, 0) + n`. -/
def add [Zero V] [Add V] (d : Dict K V) (k : K) (n : V) : Dict K V := d.set k (d.getD k 0 + n)

/-- `d.setdefault(k, v)`. -/
def setDefault (d : Dict K V) (k : K) (v : V) : Dict K V :=
  if k ∈ d.keys then d else d.set k v

/-- `d[k] = f(d[k])`, if `k` is present. -/
def modify (d : Dict K V) (k : K) (f : V → V) : Dict K V :=
  match d.get? k with
  | some v => d.set k (f v)
  | none => d

/-- The dictionary without some keys. -/
def without (d : Dict K V) (ks : List K) : Dict K V where
  entries := d.entries.filter fun entry => entry.1 ∉ ks
  nodup_keys := d.nodup_keys.sublist (List.filter_sublist.map _)

/-! ## Reading -/

theorem get?_eq_some_iff {d : Dict K V} {k : K} {v : V} :
    d.get? k = some v ↔ (k, v) ∈ d.entries := by
  unfold get?
  constructor
  · intro h
    obtain ⟨⟨k', v'⟩, hfind, rfl⟩ := Option.map_eq_some_iff.mp h
    have hkey : k' = k := by simpa using List.find?_some hfind
    exact hkey ▸ List.mem_of_find?_eq_some hfind
  · intro h
    cases hfind : d.entries.find? fun entry => entry.1 = k with
    | none => simpa using List.find?_eq_none.mp hfind (k, v) h
    | some entry =>
        obtain ⟨k', v'⟩ := entry
        have hkey : k' = k := by simpa using List.find?_some hfind
        subst hkey
        exact congrArg some (eq_of_mem_entries (List.mem_of_find?_eq_some hfind) h)

theorem get?_eq_none_iff {d : Dict K V} {k : K} : d.get? k = none ↔ k ∉ d.keys := by
  constructor
  · intro h hk
    obtain ⟨⟨k', v⟩, hmem, rfl⟩ := List.mem_map.mp hk
    rw [get?_eq_some_iff.mpr hmem] at h
    exact Option.some_ne_none v h
  · intro h
    by_contra hne
    obtain ⟨v, hv⟩ := Option.ne_none_iff_exists'.mp hne
    exact h (mem_keys_of_mem (get?_eq_some_iff.mp hv))

theorem mem_keys_iff {d : Dict K V} {k : K} : k ∈ d.keys ↔ ∃ v, d.get? k = some v := by
  rw [← not_iff_not, ← get?_eq_none_iff, Option.eq_none_iff_forall_not_mem]
  simp

/-- A dictionary that has the keys of a list without repetitions, in another order. -/
theorem keys_perm_of_forall {d : Dict K V} {ks : List K} (hnodup : ks.Nodup)
    (hkeys : ∀ k, (∃ v, d.get? k = some v) ↔ k ∈ ks) : d.keys.Perm ks :=
  (List.perm_ext_iff_of_nodup d.nodup_keys hnodup).mpr fun k => mem_keys_iff.trans (hkeys k)

theorem lookup_of_mem {entries : List (K × V)} (hnodup : (entries.map Prod.fst).Nodup)
    {entry : K × V} (hentry : entry ∈ entries) : entries.lookup entry.1 = some entry.2 := by
  induction entries with
  | nil => cases hentry
  | cons first entries ih =>
      obtain ⟨hfirst, hrest⟩ := List.nodup_cons.mp hnodup
      rw [List.lookup_cons]
      rcases List.mem_cons.mp hentry with rfl | hentry
      · rw [beq_self_eq_true]
      · have hne : entry.1 ≠ first.1 := fun heq => hfirst (heq ▸ List.mem_map_of_mem hentry)
        rw [beq_false_of_ne hne]
        exact ih hrest hentry

/-- The order of the entries does not matter. -/
theorem lookup_eq_of_perm {entries others : List (K × V)} (hperm : entries.Perm others)
    (hnodup : (entries.map Prod.fst).Nodup) (k : K) : entries.lookup k = others.lookup k := by
  have hother : (others.map Prod.fst).Nodup := (hperm.map Prod.fst).nodup_iff.mp hnodup
  cases hlookup : others.lookup k with
  | none =>
      rw [List.lookup_eq_none_iff] at hlookup ⊢
      exact fun entry hentry => hlookup entry (hperm.mem_iff.mp hentry)
  | some v =>
      obtain ⟨before, after, rfl, -⟩ := List.lookup_eq_some_iff.mp hlookup
      exact lookup_of_mem hnodup (hperm.mem_iff.mpr (List.mem_append_right _ (List.mem_cons_self ..)))

@[simp] theorem get?_empty (k : K) : (empty : Dict K V).get? k = none := rfl

@[simp] theorem getD_empty (k : K) (v : V) : (empty : Dict K V).getD k v = v := rfl

theorem getD_of_get? {d : Dict K V} {k : K} {v : V} (h : d.get? k = some v) (default : V) :
    d.getD k default = v := by
  rw [getD, h, Option.getD_some]

/-! ## Writing -/

theorem keys_set (d : Dict K V) (k : K) (v : V) :
    (d.set k v).keys = if k ∈ d.keys then d.keys else d.keys ++ [k] := by
  unfold set
  split
  · simp only [keys, List.map_map]
    refine List.map_congr_left fun entry _ => ?_
    by_cases h : entry.1 = k <;> simp [h]
  · simp [keys]

theorem mem_keys_set {d : Dict K V} {k k' : K} {v : V} :
    k' ∈ (d.set k v).keys ↔ k' = k ∨ k' ∈ d.keys := by
  rw [keys_set]
  split
  · rename_i hk
    exact ⟨Or.inr, fun h => h.elim (fun h => h ▸ hk) id⟩
  · simp [or_comm]

theorem mem_entries_set {d : Dict K V} {k k' : K} {v v' : V} :
    (k', v') ∈ (d.set k v).entries ↔ (k' = k ∧ v' = v) ∨ (k' ≠ k ∧ (k', v') ∈ d.entries) := by
  unfold set
  split
  · rename_i hk
    -- the entry of the key is replaced in its place
    simp only [List.mem_map]
    constructor
    · rintro ⟨⟨k₀, v₀⟩, hmem, heq⟩
      by_cases h : k₀ = k
      · rw [if_pos h] at heq
        exact Or.inl ⟨(Prod.mk.inj heq).1.symm, (Prod.mk.inj heq).2.symm⟩
      · rw [if_neg h] at heq
        cases heq
        exact Or.inr ⟨h, hmem⟩
    · rintro (⟨rfl, rfl⟩ | ⟨hne, hmem⟩)
      · obtain ⟨⟨k₀, v₀⟩, hmem, rfl⟩ := List.mem_map.mp hk
        exact ⟨(k₀, v₀), hmem, by simp⟩
      · exact ⟨(k', v'), hmem, by simp [hne]⟩
  · rename_i hk
    -- a new key comes last
    simp only [List.mem_append, List.mem_singleton, Prod.mk.injEq]
    constructor
    · rintro (hmem | h)
      · exact Or.inr ⟨fun heq => hk (heq ▸ mem_keys_of_mem hmem), hmem⟩
      · exact Or.inl h
    · rintro (h | ⟨_, hmem⟩)
      · exact Or.inr h
      · exact Or.inl hmem

theorem entries_set_of_notMem {d : Dict K V} {k : K} (hk : k ∉ d.keys) (v : V) :
    (d.set k v).entries = d.entries ++ [(k, v)] := by
  rw [set, dif_neg hk]

theorem entries_set_of_mem {d : Dict K V} {k : K} (hk : k ∈ d.keys) (v : V) :
    (d.set k v).entries = d.entries.map fun entry => if entry.1 = k then (k, v) else entry := by
  rw [set, dif_pos hk]

/-- Writing keys that are new appends them. -/
theorem entries_foldl_set (d : Dict K V) {entries : List (K × V)}
    (hnodup : (entries.map Prod.fst).Nodup) (hnew : ∀ entry ∈ entries, entry.1 ∉ d.keys) :
    (entries.foldl (fun d entry => d.set entry.1 entry.2) d).entries = d.entries ++ entries := by
  induction entries generalizing d with
  | nil => simp
  | cons entry entries ih =>
      obtain ⟨hentry, hentries⟩ := List.forall_mem_cons.mp hnew
      rw [List.map_cons, List.nodup_cons] at hnodup
      rw [List.foldl_cons, ih (d.set entry.1 entry.2) hnodup.2 ?_, entries_set_of_notMem hentry,
        List.append_assoc, List.singleton_append]
      intro other hother
      rw [mem_keys_set, not_or]
      exact ⟨fun heq => hnodup.1 (heq ▸ List.mem_map_of_mem hother), hentries other hother⟩

/-- **Reading after a write.** -/
theorem get?_set (d : Dict K V) (k k' : K) (v : V) :
    (d.set k v).get? k' = if k' = k then some v else d.get? k' := by
  split
  · rename_i h
    exact get?_eq_some_iff.mpr (mem_entries_set.mpr (Or.inl ⟨h, rfl⟩))
  · rename_i h
    ext w
    rw [get?_eq_some_iff, get?_eq_some_iff, mem_entries_set]
    simp [h]

@[simp] theorem get?_set_self (d : Dict K V) (k : K) (v : V) : (d.set k v).get? k = some v := by
  simp [get?_set]

/-- What is held after items have been set was held before, or is one of them. -/
theorem of_get?_foldl_set {d : Dict K V} {entries : List (K × V)} {k : K} {v : V}
    (hheld : (entries.foldl (fun d entry => d.set entry.1 entry.2) d).get? k = some v) :
    d.get? k = some v ∨ (k, v) ∈ entries := by
  induction entries generalizing d with
  | nil => exact Or.inl hheld
  | cons entry entries ih =>
      rcases ih hheld with hset | hmem
      · rw [get?_set] at hset
        split_ifs at hset with heq
        · subst heq
          obtain rfl := Option.some.inj hset
          exact Or.inr (List.mem_cons_self ..)
        · exact Or.inl hset
      · exact Or.inr (List.mem_cons_of_mem _ hmem)

theorem mem_keys_foldl_set {d : Dict K V} {entries : List (K × V)} {k : K} :
    k ∈ (entries.foldl (fun d entry => d.set entry.1 entry.2) d).keys ↔
      k ∈ d.keys ∨ k ∈ entries.map Prod.fst := by
  induction entries generalizing d with
  | nil => simp
  | cons entry entries ih =>
      rw [List.foldl_cons, ih, mem_keys_set, List.map_cons, List.mem_cons]
      tauto

theorem get?_modify (d : Dict K V) (k k' : K) (f : V → V) :
    (d.modify k f).get? k' = if k' = k then (d.get? k').map f else d.get? k' := by
  unfold modify
  split
  · rename_i v hv
    rw [get?_set]
    split
    · rename_i heq
      rw [heq, hv]
      rfl
    · rfl
  · rename_i hnone
    split
    · rename_i heq
      rw [heq, hnone]
      rfl
    · rfl

theorem getD_set (d : Dict K V) (k k' : K) (v default : V) :
    (d.set k v).getD k' default = if k' = k then v else d.getD k' default := by
  unfold getD
  rw [get?_set]
  split <;> rfl

theorem getD_add [AddMonoid V] (d : Dict K V) (k k' : K) (n : V) :
    (d.add k n).getD k' 0 = d.getD k' 0 + if k' = k then n else 0 := by
  rw [add, getD_set]
  split
  · rename_i h
    rw [h]
  · rw [add_zero]

theorem mem_keys_add [Zero V] [Add V] {d : Dict K V} {k k' : K} {n : V} :
    k' ∈ (d.add k n).keys ↔ k' = k ∨ k' ∈ d.keys := mem_keys_set

theorem get?_setDefault (d : Dict K V) (k k' : K) (v : V) :
    (d.setDefault k v).get? k' = if k' = k then (d.get? k').or (some v) else d.get? k' := by
  unfold setDefault
  split
  · rename_i hmem
    obtain ⟨w, hw⟩ := mem_keys_iff.mp hmem
    split
    · rename_i heq
      rw [heq, hw, Option.some_or]
    · rfl
  · rename_i hmem
    rw [get?_set]
    split
    · rename_i heq
      rw [heq, get?_eq_none_iff.mpr hmem, Option.none_or]
    · rfl

theorem entries_without (d : Dict K V) (ks : List K) :
    (d.without ks).entries = d.entries.filter fun entry => entry.1 ∉ ks := rfl

/-! ## Dictionaries in other terms -/

section Written

variable {L : Type*} [DecidableEq L] {f : K → L} {g : K → V → W}

/-- The second dictionary is the first one, its keys and values written in other terms. -/
def Written (f : K → L) (g : K → V → W) (d : Dict K V) (e : Dict L W) : Prop :=
  e.entries = d.entries.map fun entry => (f entry.1, g entry.1 entry.2)

variable {d : Dict K V} {e : Dict L W}

theorem Written.get? (hwritten : Written f g d e) (hf : Function.Injective f) (k : K) :
    e.get? (f k) = (d.get? k).map (g k) := by
  cases hget : d.get? k with
  | none =>
      refine get?_eq_none_iff.mpr fun hmem => ?_
      rw [keys, hwritten, List.map_map] at hmem
      obtain ⟨entry, hentry, heq⟩ := List.mem_map.mp hmem
      exact get?_eq_none_iff.mp hget (hf heq ▸ mem_keys_of_mem hentry)
  | some v =>
      refine get?_eq_some_iff.mpr ?_
      rw [hwritten]
      exact List.mem_map.mpr ⟨(k, v), get?_eq_some_iff.mp hget, rfl⟩

theorem Written.set (hwritten : Written f g d e) (hf : Function.Injective f) (k : K) (v : V) :
    Written f g (d.set k v) (e.set (f k) (g k v)) := by
  have hkeys : f k ∈ e.keys ↔ k ∈ d.keys := by
    rw [mem_keys_iff, mem_keys_iff, hwritten.get? hf]
    simp
  unfold Written
  by_cases hk : k ∈ d.keys
  · rw [entries_set_of_mem hk, entries_set_of_mem (hkeys.mpr hk), hwritten, List.map_map,
      List.map_map]
    refine List.map_congr_left fun entry _ => ?_
    by_cases heq : entry.1 = k
    · simp [heq]
    · simp [heq, hf.ne heq]
  · rw [entries_set_of_notMem hk, entries_set_of_notMem (mt hkeys.mp hk), hwritten,
      List.map_append, List.map_singleton]

end Written

/-! ## Sums over the entries -/

private theorem map_replace_of_notMem {entries : List (K × V)} {k : K} {v : V}
    (h : k ∉ entries.map Prod.fst) :
    (entries.map fun entry => if entry.1 = k then (k, v) else entry) = entries := by
  refine (List.map_congr_left fun entry hentry => ?_).trans (List.map_id entries)
  exact if_neg fun heq => h (List.mem_map.mpr ⟨entry, hentry, heq⟩)

/-- What a write does to a sum over the entries: the old value of the key leaves
the sum and the new one enters it. -/
theorem sum_entries_set [AddCommMonoid W] (d : Dict K V) (k : K) (v : V) (f : K → V → W) :
    ((d.set k v).entries.map fun entry => f entry.1 entry.2).sum + ((d.get? k).elim 0 (f k)) =
      (d.entries.map fun entry => f entry.1 entry.2).sum + f k v := by
  by_cases hk : k ∈ d.keys
  · obtain ⟨v₀, hv₀⟩ := mem_keys_iff.mp hk
    obtain ⟨before, after, hsplit⟩ := List.append_of_mem (get?_eq_some_iff.mp hv₀)
    have hkeys := d.nodup_keys
    rw [hsplit, List.map_append, List.map_cons, List.nodup_middle, List.nodup_cons,
      List.mem_append, not_or] at hkeys
    have hentries : (d.set k v).entries = before ++ (k, v) :: after := by
      simp only [set, dif_pos hk, hsplit, List.map_append, List.map_cons, if_true]
      rw [map_replace_of_notMem hkeys.1.1, map_replace_of_notMem hkeys.1.2]
    simp only [hentries, hsplit, hv₀, List.map_append, List.map_cons, List.sum_append,
      List.sum_cons, Option.elim]
    abel
  · have hentries : (d.set k v).entries = d.entries ++ [(k, v)] := by simp [set, hk]
    rw [get?_eq_none_iff.mpr hk]
    simp [hentries]

theorem sum_set [AddCommMonoid W] (d : Dict K V) (k : K) (v : V) (f : V → W) :
    ((d.set k v).values.map f).sum + ((d.get? k).elim 0 f) = (d.values.map f).sum + f v := by
  have hsum := d.sum_entries_set k v fun _ => f
  simpa only [values, List.map_map, Function.comp_def] using hsum

/-! ## Adding up a list of entries -/

/-- The sum of the values that a list of entries holds for `k`. -/
def tally [AddMonoid V] (entries : List (K × V)) (k : K) : V :=
  (entries.map fun entry => if entry.1 = k then entry.2 else 0).sum

@[simp] theorem tally_nil [AddMonoid V] (k : K) : tally ([] : List (K × V)) k = 0 := rfl

@[simp] theorem tally_cons [AddMonoid V] (entry : K × V) (entries : List (K × V)) (k : K) :
    tally (entry :: entries) k = (if entry.1 = k then entry.2 else 0) + tally entries k := rfl

theorem tally_eq_zero [AddMonoid V] {entries : List (K × V)} {k : K}
    (h : k ∉ entries.map Prod.fst) : tally entries k = 0 := by
  refine List.sum_eq_zero fun value hvalue => ?_
  obtain ⟨entry, hentry, rfl⟩ := List.mem_map.mp hvalue
  exact if_neg fun heq => h (List.mem_map.mpr ⟨entry, hentry, heq⟩)

/-- A dictionary holds for each key the tally of its entries. -/
theorem getD_eq_tally [AddCommMonoid V] (d : Dict K V) (k : K) :
    d.getD k 0 = tally d.entries k := by
  by_cases hk : k ∈ d.keys
  · obtain ⟨v, hv⟩ := mem_keys_iff.mp hk
    obtain ⟨before, after, hsplit⟩ := List.append_of_mem (get?_eq_some_iff.mp hv)
    have hkeys := d.nodup_keys
    rw [hsplit, List.map_append, List.map_cons, List.nodup_middle, List.nodup_cons,
      List.mem_append, not_or] at hkeys
    rw [getD_of_get? hv, tally, hsplit, List.map_append, List.sum_append]
    have hbefore := tally_eq_zero (V := V) hkeys.1.1
    have hafter := tally_eq_zero (V := V) hkeys.1.2
    unfold tally at hbefore hafter
    simp [hbefore, hafter]
  · rw [getD, get?_eq_none_iff.mpr hk, tally_eq_zero hk]
    rfl

end Dict
end EveBuild
