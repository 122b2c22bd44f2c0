import TradeGate.Json.Merge
import Mathlib.Data.List.Basic

/-!
# What a merge changes

A value is looked up along a path through objects (`Json.at?`), and it mentions a path if it has
something there or stops being an object on the way (`Json.mentions`). Merging changes what a patch
names and nothing else: `get?_mergeMembers` says so of one object.
-/

namespace TradeGate

namespace Json

/-- The value at the end of a path through objects. -/
def at? : List String → Json → Option Json
  | [], value => some value
  | name :: path, obj members => (Members.get? members name).bind (at? path)
  | _ :: _, _ => none

/-- The value has something at the end of the path, or something that is no object on the way. -/
def mentions : List String → Json → Bool
  | [], _ => true
  | name :: path, obj members =>
    match Members.get? members name with
    | some value => mentions path value
    | none => false
  | _ :: _, _ => true

mutual

/-- Every object in the value names each of its members once. -/
def namesOnce : Json → Bool
  | arr items => namesOnceItems items
  | obj members => decide (members.map Prod.fst).Nodup && namesOnceMembers members
  | _ => true

/-- `namesOnce` of every item. -/
def namesOnceItems : List Json → Bool
  | [] => true
  | item :: rest => namesOnce item && namesOnceItems rest

/-- `namesOnce` of every member's value. -/
def namesOnceMembers : List (String × Json) → Bool
  | [] => true
  | (_, value) :: rest => namesOnce value && namesOnceMembers rest

end

end Json

namespace Members

variable {name other : String} {members : Members}

theorem get?_cons_self (name : String) (value : Json) (rest : Members) :
    get? ((name, value) :: rest) name = some value := by
  simp [get?]

theorem get?_cons_of_ne (h : name ≠ other) (value : Json) (rest : Members) :
    get? ((other, value) :: rest) name = get? rest name := by
  have h : (name == other) = false := by simpa using h
  simp [get?, List.lookup_cons, h]

theorem get?_eq_none_iff : members.get? name = none ↔ name ∉ members.names := by
  induction members with
  | nil => simp [get?, names]
  | cons head rest ih =>
    obtain ⟨key, value⟩ := head
    by_cases h : name = key
    · subst h
      simp [get?_cons_self, names]
    · rw [get?_cons_of_ne h, ih]
      simp [names, h]

theorem get?_append (members others : Members) :
    get? (members ++ others) name = (members.get? name).or (others.get? name) :=
  List.lookup_append

/-- Where names occur once, a name has one member. -/
theorem filter_eq_singleton (hnames : members.names.Nodup) {value : Json}
    (h : members.get? name = some value) : members.filter (·.1 = name) = [(name, value)] := by
  induction members with
  | nil => exact nomatch h
  | cons head rest ih =>
    obtain ⟨key, first⟩ := head
    obtain ⟨hkey, hrest⟩ := List.nodup_cons.1 hnames
    by_cases hname : name = key
    · subst hname
      have hnone : List.filter (fun member => decide (member.1 = name)) rest = [] := by
        refine List.filter_eq_nil_iff.2 fun member hmember hsame => hkey ?_
        have hfst : member.1 ∈ List.map Prod.fst rest := List.mem_map_of_mem hmember
        rwa [of_decide_eq_true hsame] at hfst
      rw [get?_cons_self] at h
      rw [List.filter_cons_of_pos (by simp), hnone, Option.some.inj h]
    · rw [get?_cons_of_ne hname] at h
      rw [List.filter_cons_of_neg (by simpa using Ne.symm hname)]
      exact ih hrest h

theorem mem_names_set_iff (value : Json) :
    other ∈ (members.set name value).names ↔ other = name ∨ other ∈ members.names := by
  induction members with
  | nil => simp [set, names]
  | cons head rest ih =>
    obtain ⟨key, old⟩ := head
    unfold set
    by_cases h : key = name
    · simp [names, h]
    · rw [if_neg h]
      show other ∈ key :: (set name value rest).names ↔ _ ∨ other ∈ key :: names rest
      rw [List.mem_cons, List.mem_cons, ih]
      exact or_left_comm

theorem nodup_names_set (value : Json) (h : members.names.Nodup) :
    (members.set name value).names.Nodup := by
  induction members with
  | nil => simp [set, names]
  | cons head rest ih =>
    obtain ⟨key, old⟩ := head
    obtain ⟨hkey, hrest⟩ := List.nodup_cons.1 h
    unfold set
    by_cases hsame : key = name
    · rw [if_pos hsame, ← hsame]
      exact h
    · rw [if_neg hsame]
      refine List.nodup_cons.2 ⟨fun hmem => ?_, ih hrest⟩
      rcases (mem_names_set_iff value).1 hmem with heq | hmem
      · exact hsame heq
      · exact hkey hmem

end Members

namespace Json

open Members

theorem mem_names_mergeMembers_iff {name : String} {patches : List (String × Json)}
    {members : Members} : name ∈ (mergeMembers members patches).names ↔
      name ∈ names members ∨ name ∈ names patches := by
  induction patches generalizing members with
  | nil => simp [mergeMembers, names]
  | cons patch rest ih =>
    obtain ⟨key, value⟩ := patch
    rw [mergeMembers, ih, mem_names_set_iff]
    show _ ↔ _ ∨ name ∈ key :: names rest
    rw [List.mem_cons]
    tauto

theorem nodup_names_mergeMembers (patches : List (String × Json)) {members : Members}
    (h : members.names.Nodup) : (mergeMembers members patches).names.Nodup := by
  induction patches generalizing members with
  | nil => exact h
  | cons patch rest ih =>
    rw [mergeMembers]
    exact ih (nodup_names_set _ h)

/-- A member that the patch does not name is left alone. -/
theorem get?_mergeMembers_of_not_mem {name : String} {patches : List (String × Json)}
    {members : Members} (h : name ∉ names patches) :
    (mergeMembers members patches).get? name = members.get? name := by
  induction patches generalizing members with
  | nil => rfl
  | cons patch rest ih =>
    obtain ⟨key, value⟩ := patch
    have hkey : name ≠ key := fun heq => h (heq ▸ List.mem_cons_self)
    rw [mergeMembers, ih fun hmem => h (List.mem_cons_of_mem _ hmem), get?_set_of_ne hkey]

/-- A member that the patch names has the patch's value merged in. -/
theorem get?_mergeMembers_of_get? {name : String} {value old : Json}
    {patches : List (String × Json)} {members : Members} (hpatches : (names patches).Nodup)
    (hvalue : get? patches name = some value) (hold : members.get? name = some old) :
    (mergeMembers members patches).get? name = some (merge old value) := by
  induction patches generalizing members with
  | nil => exact nomatch hvalue
  | cons patch rest ih =>
    obtain ⟨key, first⟩ := patch
    obtain ⟨hkey, hrest⟩ := List.nodup_cons.1 hpatches
    rw [mergeMembers]
    by_cases h : name = key
    · subst h
      rw [get?_cons_self] at hvalue
      rw [get?_mergeMembers_of_not_mem hkey, get?_set_self, hold, ← Option.some.inj hvalue]
    · rw [get?_cons_of_ne h] at hvalue
      exact ih hrest hvalue ((get?_set_of_ne h _ _).trans hold)

/-- What is no object is replaced. -/
theorem merge_of_not_isObj {base : Json} (h : base.isObj = false) (patch : Json) :
    merge base patch = patch := by
  cases patch with
  | obj patches =>
    cases base with
    | obj members => exact nomatch h
    | null | bool | int | float | str | arr | malformed =>
      rw [merge]
      exact nofun
  | null | bool | int | float | str | arr | malformed =>
    rw [merge]
    exact nofun

/-- What is no object replaces all. -/
theorem merge_of_patch_not_isObj (base : Json) {patch : Json} (h : patch.isObj = false) :
    merge base patch = patch := by
  cases patch with
  | obj patches => exact nomatch h
  | null | bool | int | float | str | arr | malformed =>
    rw [merge]
    exact nofun

theorem merge_obj (members : Members) (patches : List (String × Json)) :
    merge (obj members) (obj patches) = obj (mergeMembers members patches) := by
  rw [merge]

theorem namesOnce_of_get? {members : Members} (h : namesOnceMembers members = true)
    {name : String} {value : Json} (hvalue : members.get? name = some value) :
    value.namesOnce = true := by
  induction members with
  | nil => exact nomatch hvalue
  | cons head rest ih =>
    obtain ⟨key, first⟩ := head
    rw [namesOnceMembers, Bool.and_eq_true] at h
    by_cases hkey : name = key
    · subst hkey
      rw [get?_cons_self] at hvalue
      rw [← Option.some.inj hvalue]
      exact h.1
    · rw [get?_cons_of_ne hkey] at hvalue
      exact ih h.2 hvalue

theorem nodup_of_namesOnce {members : Members} (h : (obj members).namesOnce = true) :
    members.names.Nodup := by
  rw [namesOnce, Bool.and_eq_true] at h
  exact of_decide_eq_true h.1

end Json

end TradeGate
