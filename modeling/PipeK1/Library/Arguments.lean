import Mathlib.Data.List.Induction

/-!
# Command-line scanners

A scanner walks over its arguments from left to right. A token in option
position may take the argument after it as its value; that argument is then in
no option position itself.
-/

set_option autoImplicit false

namespace Arguments

/-- A token in option position, with the argument it took. -/
structure Item where
  token : String
  value : Option String
deriving DecidableEq

/-- The tokens in option position. One that wants a value has none at the end. -/
def items (takesValue : String → Bool) : List String → List Item
  | [] => []
  | [token] => [⟨token, none⟩]
  | token :: value :: rest =>
      if takesValue token then ⟨token, some value⟩ :: items takesValue rest
      else ⟨token, none⟩ :: items takesValue (value :: rest)

/-- The value of the last item that has this token and a value. -/
def lastValue (token : String) (scanned : List Item) : Option String :=
  (scanned.filterMap fun item => if item.token = token then item.value else none).getLast?

theorem lastValue_isSome_iff {token : String} {scanned : List Item} :
    (lastValue token scanned).isSome ↔ ∃ value, ⟨token, some value⟩ ∈ scanned := by
  rw [lastValue, List.getLast?_isSome, ne_eq, List.eq_nil_iff_forall_not_mem, not_forall_not]
  constructor
  · rintro ⟨value, member⟩
    obtain ⟨⟨_, _⟩, present, found⟩ := List.mem_filterMap.mp member
    simp only [Option.ite_none_right_eq_some] at found
    obtain ⟨rfl, rfl⟩ := found
    exact ⟨value, present⟩
  · rintro ⟨value, present⟩
    exact ⟨value, List.mem_filterMap.mpr ⟨_, present, by simp⟩⟩

theorem lastValue_concat (token : String) (scanned : List Item) (item : Item) :
    lastValue token (scanned ++ [item]) =
      if item.token = token then item.value.or (lastValue token scanned)
      else lastValue token scanned := by
  obtain ⟨name, value⟩ := item
  by_cases named : name = token
  · cases value with
    | none => simp [lastValue, named]
    | some value => simp [lastValue, named]
  · simp [lastValue, named]

/-- A field that only this token's values change is set by the last of them. -/
theorem foldl_lastValue_map {σ α : Type} {apply : σ → Item → σ} {field : σ → α}
    {set : String → α} (token : String)
    (changes : ∀ state item, field (apply state item) =
      if item.token = token then (item.value.map set).getD (field state) else field state)
    (state : σ) (scanned : List Item) :
    field (scanned.foldl apply state) = ((lastValue token scanned).map set).getD (field state) := by
  induction scanned using List.reverseRecOn with
  | nil => rfl
  | append_singleton scanned item ih =>
      rw [List.foldl_append, List.foldl_cons, List.foldl_nil, changes, ih, lastValue_concat]
      by_cases named : item.token = token
      · rw [if_pos named, if_pos named]
        cases item.value <;> rfl
      · rw [if_neg named, if_neg named]

/-- A field that holds the last of this token's values. -/
theorem foldl_lastValue {σ : Type} {apply : σ → Item → σ} {field : σ → Option String}
    (token : String)
    (changes : ∀ state item, field (apply state item) =
      if item.token = token ∧ item.value.isSome then item.value else field state)
    (state : σ) (scanned : List Item) :
    field (scanned.foldl apply state) = (lastValue token scanned).or (field state) := by
  rw [@foldl_lastValue_map σ _ apply field some token ?_ state scanned]
  · cases lastValue token scanned <;> rfl
  · intro state item
    rw [changes]
    cases item.value <;> simp

/-- A field that holds what the last of this token's values parses to. -/
theorem foldl_lastValue_bind {σ α : Type} {apply : σ → Item → σ} {field : σ → Option α}
    {parse : String → Option α} (token : String)
    (changes : ∀ state item, field (apply state item) =
      if item.token = token ∧ item.value.isSome then item.value.bind parse else field state)
    (state : σ) (scanned : List Item) :
    field (scanned.foldl apply state) =
      match lastValue token scanned with
      | some value => parse value
      | none => field state := by
  rw [@foldl_lastValue_map σ _ apply field parse token ?_ state scanned]
  · cases lastValue token scanned <;> rfl
  · intro state item
    rw [changes]
    cases item.value <;> simp

/-! ## Places

Where in the argument vector a scanner finds its options and takes their values. -/

/-- The items with the places of their tokens. -/
def placedItems (takesValue : String → Bool) : Nat → List String → List (Nat × Item)
  | _, [] => []
  | place, [token] => [(place, ⟨token, none⟩)]
  | place, token :: value :: rest =>
      if takesValue token then (place, ⟨token, some value⟩) :: placedItems takesValue (place + 2) rest
      else (place, ⟨token, none⟩) :: placedItems takesValue (place + 1) (value :: rest)

/-- The scanner that starts before these arguments comes out right behind them. -/
def reaches (takesValue : String → Bool) : List String → Bool
  | [] => true
  | [token] => !takesValue token
  | token :: value :: rest =>
      if takesValue token then reaches takesValue rest else reaches takesValue (value :: rest)

variable {takesValue : String → Bool}

/-- What comes after an argument is an option's place, unless that argument takes it. -/
theorem reaches_concat (before : List String) (token : String) :
    reaches takesValue (before ++ [token]) =
      !(reaches takesValue before && takesValue token) := by
  induction before using reaches.induct takesValue with
  | case1 => rfl
  | case2 first =>
      cases takes : takesValue first with
      | true => simp [reaches, takes]
      | false => simp [reaches, takes]
  | case3 first value rest takes ih =>
      rw [List.cons_append, List.cons_append, reaches, if_pos takes, ih, reaches, if_pos takes]
  | case4 first value rest leaves ih =>
      rw [List.cons_append, List.cons_append, reaches, if_neg leaves, reaches, if_neg leaves,
        ← List.cons_append, ih]

/-- The item at a token in option position. -/
def itemAt (takesValue : String → Bool) (token : String) (rest : List String) : Item :=
  ⟨token, if takesValue token then rest.head? else none⟩

theorem mem_placedItems_iff {start place : Nat} {args : List String} {item : Item} :
    (place, item) ∈ placedItems takesValue start args ↔
      ∃ before token rest, args = before ++ token :: rest ∧ reaches takesValue before = true ∧
        place = start + before.length ∧ item = itemAt takesValue token rest := by
  have first : ∀ {start : Nat} {token : String} {rest : List String},
      (∃ before other later, token :: rest = before ++ other :: later ∧
        reaches takesValue before = true ∧ place = start + before.length ∧
        item = itemAt takesValue other later) ↔
      (place = start ∧ item = itemAt takesValue token rest) ∨
        ∃ before other later, rest = before ++ other :: later ∧
          reaches takesValue (token :: before) = true ∧ place = start + (before.length + 1) ∧
          item = itemAt takesValue other later := by
    intro start token rest
    constructor
    · rintro ⟨before, other, later, split, reached, placed, same⟩
      cases before with
      | nil =>
          obtain ⟨rfl, rfl⟩ := List.cons.inj split
          exact .inl ⟨placed, same⟩
      | cons other' before =>
          obtain ⟨rfl, split'⟩ := List.cons.inj split
          exact .inr ⟨before, other, later, split', reached, placed, same⟩
    · rintro (⟨placed, same⟩ | ⟨before, other, later, rfl, reached, placed, same⟩)
      · exact ⟨[], token, rest, rfl, rfl, placed, same⟩
      · exact ⟨token :: before, other, later, rfl, reached, placed, same⟩
  induction start, args using placedItems.induct takesValue with
  | case1 start =>
      refine iff_of_false List.not_mem_nil ?_
      rintro ⟨before, token, rest, split, _⟩
      cases before <;> cases split
  | case2 start token =>
      rw [first, placedItems, List.mem_singleton, Prod.mk.injEq, itemAt, List.head?_nil, ite_self]
      refine (or_iff_left ?_).symm
      rintro ⟨before, other, later, split, _⟩
      cases before <;> cases split
  | case3 start token value rest takes ih =>
      rw [first, placedItems, if_pos takes, List.mem_cons, Prod.mk.injEq, itemAt, if_pos takes,
        List.head?_cons]
      refine or_congr_right (ih.trans ?_)
      constructor
      · rintro ⟨before, other, later, rfl, reached, placed, same⟩
        refine ⟨value :: before, other, later, rfl, ?_, ?_, same⟩
        · rwa [reaches, if_pos takes]
        · rw [placed, List.length_cons]
          omega
      · rintro ⟨before, other, later, split, reached, placed, same⟩
        cases before with
        | nil =>
            rw [reaches, takes] at reached
            cases reached
        | cons other' before =>
            obtain ⟨rfl, split'⟩ := List.cons.inj split
            rw [reaches, if_pos takes] at reached
            refine ⟨before, other, later, split', reached, ?_, same⟩
            rw [placed, List.length_cons]
            omega
  | case4 start token value rest leaves ih =>
      rw [first, placedItems, if_neg leaves, List.mem_cons, Prod.mk.injEq, itemAt,
        if_neg leaves]
      refine or_congr_right (ih.trans ?_)
      constructor
      · rintro ⟨before, other, later, split, reached, placed, same⟩
        refine ⟨before, other, later, split, ?_, by omega, same⟩
        cases before with
        | nil =>
            rw [reaches, Bool.eq_false_iff.mpr leaves]
            rfl
        | cons other' before =>
            rwa [reaches, if_neg leaves]
      · rintro ⟨before, other, later, split, reached, placed, same⟩
        refine ⟨before, other, later, split, ?_, by omega, same⟩
        cases before with
        | nil => rfl
        | cons other' before =>
            rwa [reaches, if_neg leaves] at reached

/-! ## Two scanners over the same arguments -/

/-- A loop over the arguments, with the options it acts on. -/
structure Scanner (σ : Type) where
  takesValue : String → Bool
  flag : String → Bool
  apply : σ → Item → σ
  acts_iff : ∀ item, (∃ state, apply state item ≠ state) ↔
    flag item.token = true ∨ (takesValue item.token = true ∧ item.value.isSome = true)

namespace Scanner

variable {σ τ : Type}

/-- The argument at this place is the value of an option. -/
def Consumes (scanner : Scanner σ) (args : List String) (place : Nat) : Prop :=
  ∃ i item, (i, item) ∈ placedItems scanner.takesValue 0 args ∧ item.value.isSome = true ∧
    place = i + 1

/-- The argument at this place is an option that changes the loop's variables. -/
def ActsOn (scanner : Scanner σ) (args : List String) (place : Nat) : Prop :=
  ∃ item, (place, item) ∈ placedItems scanner.takesValue 0 args ∧
    ∃ state, scanner.apply state item ≠ state

/-- Neither acts on what the other consumes. -/
structure Agree (first : Scanner σ) (second : Scanner τ) (args : List String) : Prop where
  left : ∀ place, first.Consumes args place → ¬ second.ActsOn args place
  right : ∀ place, second.Consumes args place → ¬ first.ActsOn args place

/-- An option of the first scanner, where it reads one, is followed by an option of the second. -/
def Crosses (first : Scanner σ) (second : Scanner τ) (args : List String) : Prop :=
  ∃ before option value after, args = before ++ option :: value :: after ∧
    reaches first.takesValue before = true ∧ first.takesValue option = true ∧
    (second.flag value = true ∨ (second.takesValue value = true ∧ after ≠ []))

theorem consumes_iff {scanner : Scanner σ} {args : List String} {place : Nat} :
    scanner.Consumes args place ↔ ∃ before option value after,
      args = before ++ option :: value :: after ∧
        reaches scanner.takesValue before = true ∧ scanner.takesValue option = true ∧
        place = before.length + 1 := by
  constructor
  · rintro ⟨i, item, member, taken, placed⟩
    obtain ⟨before, option, rest, split, reached, here, rfl⟩ := mem_placedItems_iff.mp member
    rw [itemAt] at taken
    split at taken
    · next takes =>
        cases rest with
        | nil => cases taken
        | cons value after =>
            exact ⟨before, option, value, after, split, reached, takes, by omega⟩
    · cases taken
  · rintro ⟨before, option, value, after, split, reached, takes, placed⟩
    refine ⟨before.length, itemAt scanner.takesValue option (value :: after),
      mem_placedItems_iff.mpr ⟨before, option, value :: after, split, reached, by omega, rfl⟩, ?_,
      placed⟩
    rw [itemAt, if_pos takes]
    rfl

theorem actsOn_iff {scanner : Scanner σ} {before rest : List String} {token : String}
    (reached : reaches scanner.takesValue before = true) :
    scanner.ActsOn (before ++ token :: rest) before.length ↔
      scanner.flag token = true ∨ (scanner.takesValue token = true ∧ rest ≠ []) := by
  have taken : (scanner.takesValue token = true ∧
      (itemAt scanner.takesValue token rest).value.isSome = true) ↔
      scanner.takesValue token = true ∧ rest ≠ [] := by
    refine and_congr_right fun takes => ?_
    rw [itemAt, if_pos takes]
    cases rest <;> simp
  rw [← taken]
  constructor
  · rintro ⟨item, member, acts⟩
    obtain ⟨before', token', rest', split, _, placed, rfl⟩ := mem_placedItems_iff.mp member
    obtain ⟨rfl, same⟩ := List.append_inj split (by omega)
    obtain ⟨rfl, rfl⟩ := List.cons.inj same
    exact (scanner.acts_iff _).mp acts
  · intro known
    exact ⟨itemAt scanner.takesValue token rest,
      mem_placedItems_iff.mpr ⟨before, token, rest, rfl, reached, by omega, rfl⟩,
      (scanner.acts_iff _).mpr known⟩

/-- A scanner with other value options always reads an option right behind one of the first's. -/
theorem crosses_iff {first : Scanner σ} {second : Scanner τ}
    (disjoint : ∀ token, first.takesValue token = true → second.takesValue token = false)
    {args : List String} :
    first.Crosses second args ↔ ∃ place, first.Consumes args place ∧ second.ActsOn args place := by
  have behind : ∀ (before : List String) (option : String), first.takesValue option = true →
      reaches second.takesValue (before ++ [option]) = true := by
    intro before option takes
    rw [reaches_concat, disjoint option takes, Bool.and_false]
    rfl
  constructor
  · rintro ⟨before, option, value, after, split, reached, takes, known⟩
    refine ⟨before.length + 1,
      consumes_iff.mpr ⟨before, option, value, after, split, reached, takes, rfl⟩, ?_⟩
    have acts := (actsOn_iff (behind before option takes)).mpr known
    rwa [List.append_assoc, List.length_append, List.singleton_append, ← split] at acts
  · rintro ⟨place, consumes, acts⟩
    obtain ⟨before, option, value, after, split, reached, takes, rfl⟩ := consumes_iff.mp consumes
    refine ⟨before, option, value, after, split, reached, takes, ?_⟩
    refine (actsOn_iff (behind before option takes)).mp ?_
    rwa [List.append_assoc, List.length_append, List.singleton_append, ← split]

/-- Scanners with different value options agree unless the values of one are options of the
other. -/
theorem agree_iff {first : Scanner σ} {second : Scanner τ}
    (disjoint : ∀ token, first.takesValue token = true → second.takesValue token = false)
    {args : List String} :
    first.Agree second args ↔ ¬ first.Crosses second args ∧ ¬ second.Crosses first args := by
  have disjoint' : ∀ token, second.takesValue token = true → first.takesValue token = false := by
    intro token takes
    rw [Bool.eq_false_iff]
    intro takes'
    rw [disjoint token takes'] at takes
    cases takes
  rw [crosses_iff disjoint, crosses_iff disjoint']
  constructor
  · intro agree
    exact ⟨fun ⟨place, consumes, acts⟩ => agree.left place consumes acts,
      fun ⟨place, consumes, acts⟩ => agree.right place consumes acts⟩
  · rintro ⟨left, right⟩
    exact ⟨fun place consumes acts => left ⟨place, consumes, acts⟩,
      fun place consumes acts => right ⟨place, consumes, acts⟩⟩

end Scanner

end Arguments
