import Mathlib.Data.List.Induction
import Mathlib.Data.List.Nodup
import WidthCheck.Proofs.Lowering.Invariant

/-!
# The templates that are known

A template gets its place when its key is first declared. A later declaration of that key never
moves it, and takes its place only with a body. So an index stands for a key, and a pair of an index
and arguments that has been instantiated goes on standing for the same template.
-/

namespace WidthCheck.Lowering

namespace FunctionTemplate

variable {s t u : FunctionTemplate} {known declared : List FunctionTemplate}

/-- What declarations of the same template agree in: the name and the numbers of parameters. -/
def key (t : FunctionTemplate) : String × Nat × Nat :=
  (t.name, t.params.length, t.paramTypes.length)

theorem sameKey_iff : s.sameKey t = true ↔ s.key = t.key := by
  simp [sameKey, key, and_assoc]

/-! ## One declaration -/

theorem register_cons_of_key_eq (h : s.key = t.key) (rest : List FunctionTemplate) :
    t.register (s :: rest) = (if t.hasBody then t else s) :: rest :=
  if_pos (sameKey_iff.mpr h)

theorem register_cons_of_key_ne (h : s.key ≠ t.key) (rest : List FunctionTemplate) :
    t.register (s :: rest) = s :: t.register rest :=
  if_neg (mt sameKey_iff.mp h)

theorem keys_register (t : FunctionTemplate) (known : List FunctionTemplate) :
    (t.register known).map key =
      if t.key ∈ known.map key then known.map key else known.map key ++ [t.key] := by
  induction known with
  | nil => rfl
  | cons s rest ih =>
    by_cases h : s.key = t.key
    · have hkept : (if t.hasBody then t else s).key = s.key := by
        split
        · exact h.symm
        · rfl
      rw [register_cons_of_key_eq h, List.map_cons, List.map_cons, hkept, if_pos (by simp [h])]
    · have hmem : t.key ∈ (s :: rest).map key ↔ t.key ∈ rest.map key := by
        simp [Ne.symm h]
      rw [register_cons_of_key_ne h, List.map_cons, ih]
      simp only [hmem]
      split <;> rfl

/-- What stands in the place of a template after declarations: the template itself, or a definition
of it. -/
structure GivesWayTo (s t : FunctionTemplate) : Prop where
  key_eq : t.key = s.key
  definition : t = s ∨ t.hasBody = true

theorem GivesWayTo.refl (s : FunctionTemplate) : s.GivesWayTo s := ⟨rfl, .inl rfl⟩

theorem GivesWayTo.trans (first : s.GivesWayTo t) (second : t.GivesWayTo u) : s.GivesWayTo u where
  key_eq := second.key_eq.trans first.key_eq
  definition := by
    rcases second.definition with rfl | hbody
    · exact first.definition
    · exact .inr hbody

theorem getElem?_register (t : FunctionTemplate) {index : Nat} (h : known[index]? = some s) :
    ∃ entry, (t.register known)[index]? = some entry ∧ s.GivesWayTo entry := by
  induction known generalizing index with
  | nil => cases h
  | cons first rest ih =>
    by_cases hkey : first.key = t.key
    · rw [register_cons_of_key_eq hkey]
      cases index with
      | zero =>
        obtain rfl := Option.some.inj h
        refine ⟨_, rfl, ?_⟩
        split
        · rename_i hbody
          exact ⟨hkey.symm, .inr hbody⟩
        · exact .refl first
      | succ index => exact ⟨s, h, .refl s⟩
    · rw [register_cons_of_key_ne hkey]
      cases index with
      | zero => exact ⟨s, h, .refl s⟩
      | succ index => exact ih h

-- The first entry of a key is the one that is replaced or kept.
theorem find?_register (t : FunctionTemplate) (known : List FunctionTemplate)
    (k : String × Nat × Nat) :
    (t.register known).find? (·.key == k) =
      if t.key = k ∧ t.hasBody then some t
      else (known.find? (·.key == k)).or (if t.key = k then some t else none) := by
  induction known with
  | nil =>
    by_cases hk : t.key = k <;> simp [register, hk]
  | cons s rest ih =>
    by_cases hkey : s.key = t.key
    · rw [register_cons_of_key_eq hkey]
      by_cases hk : t.key = k
      · cases hbody : t.hasBody <;> simp [hkey, hk]
      · have hs : s.key ≠ k := fun h => hk (hkey.symm.trans h)
        cases hbody : t.hasBody <;> simp [hs, hk]
    · rw [register_cons_of_key_ne hkey]
      by_cases hs : s.key = k
      · have hk : t.key ≠ k := fun h => hkey (hs.trans h.symm)
        simp [hs, hk]
      · rw [List.find?_cons_of_neg (by simpa using hs), List.find?_cons_of_neg (by simpa using hs),
          ih]

/-! ## Many declarations -/

/-- The templates that are known after declarations, given in their order. -/
def registerAll (known declared : List FunctionTemplate) : List FunctionTemplate :=
  declared.foldl (fun known t => t.register known) known

theorem registerAll_append (known declared more : List FunctionTemplate) :
    registerAll known (declared ++ more) = registerAll (registerAll known declared) more :=
  List.foldl_append

theorem registerAll_concat (known declared : List FunctionTemplate) (t : FunctionTemplate) :
    registerAll known (declared ++ [t]) = t.register (registerAll known declared) :=
  registerAll_append known declared [t]

theorem getElem?_registerAll (declared : List FunctionTemplate) {index : Nat}
    (h : known[index]? = some s) :
    ∃ entry, (registerAll known declared)[index]? = some entry ∧ s.GivesWayTo entry := by
  induction declared generalizing known s with
  | nil => exact ⟨s, h, .refl s⟩
  | cons t rest ih =>
    obtain ⟨entry, hentry, hfirst⟩ := getElem?_register t h
    obtain ⟨last, hlast, hrest⟩ := ih hentry
    exact ⟨last, hlast, hfirst.trans hrest⟩

/-- The declaration that stands for a key: the last one with a body, or else the first one. -/
def standing? (declared : List FunctionTemplate) (k : String × Nat × Nat) :
    Option FunctionTemplate :=
  (declared.reverse.find? fun t => t.key == k && t.hasBody).or (declared.find? (·.key == k))

theorem standing?_concat (declared : List FunctionTemplate) (t : FunctionTemplate)
    (k : String × Nat × Nat) :
    standing? (declared ++ [t]) k =
      if t.key = k ∧ t.hasBody then some t
      else (standing? declared k).or (if t.key = k then some t else none) := by
  unfold standing?
  rw [List.reverse_append, List.reverse_singleton, List.singleton_append, List.find?_append]
  by_cases hk : t.key = k
  · cases hbody : t.hasBody <;> simp [hk, hbody]
  · simp [hk]

theorem find?_registerAll (declared : List FunctionTemplate) (k : String × Nat × Nat) :
    (registerAll [] declared).find? (·.key == k) = standing? declared k := by
  induction declared using List.reverseRecOn with
  | nil => rfl
  | append_singleton declared t ih =>
    rw [registerAll_concat, find?_register, standing?_concat, ih]

theorem keys_registerAll (declared : List FunctionTemplate) :
    (registerAll [] declared).map key = (declared.map key).eraseDups := by
  induction declared using List.reverseRecOn with
  | nil => rfl
  | append_singleton declared t ih =>
    rw [registerAll_concat, keys_register, ih, List.map_append, List.eraseDups_append]
    by_cases hmem : t.key ∈ declared.map key
    · have hremoved : List.removeAll [t.key] (declared.map key) = [] := by
        simpa [List.removeAll] using hmem
      rw [if_pos (List.mem_eraseDups.mpr hmem), List.map_singleton, hremoved]
      exact (List.append_nil _).symm
    · have hkept : List.removeAll [t.key] (declared.map key) = [t.key] := by
        simpa [List.removeAll] using hmem
      rw [if_neg (mt List.mem_eraseDups.mp hmem), List.map_singleton, hkept]
      rfl

-- A key that is declared again is no new one.
theorem nodup_keys_registerAll (declared : List FunctionTemplate) :
    ((registerAll [] declared).map key).Nodup := by
  induction declared using List.reverseRecOn with
  | nil => exact .nil
  | append_singleton declared t ih =>
    rw [registerAll_concat, keys_register]
    split
    · exact ih
    · rename_i hnew
      exact List.nodup_append.mpr ⟨ih, List.nodup_singleton _, by simpa using hnew⟩

theorem find?_eq_some_of_nodup (hnodup : (known.map key).Nodup) (k : String × Nat × Nat) :
    known.find? (·.key == k) = some s ↔ s ∈ known ∧ s.key = k := by
  constructor
  · intro h
    exact ⟨List.mem_of_find?_eq_some h, by simpa using List.find?_some h⟩
  · rintro ⟨hmem, rfl⟩
    cases hfind : known.find? (·.key == s.key) with
    | none => simpa using List.find?_eq_none.mp hfind s hmem
    | some first =>
      have hkey : first.key = s.key := by simpa using List.find?_some hfind
      rw [List.inj_on_of_nodup_map hnodup (List.mem_of_find?_eq_some hfind) hmem hkey]

/-- The templates that are known after declarations, by key. -/
structure KnownByKey (declared : List FunctionTemplate) : Prop where
  nodup : ((registerAll [] declared).map key).Nodup
  /-- The keys stand in the order in which they are first declared. -/
  order : (registerAll [] declared).map key = (declared.map key).eraseDups
  standing : ∀ k entry, entry ∈ registerAll [] declared ∧ entry.key = k ↔
    standing? declared k = some entry
  /-- An index stands for its key, whatever is declared later. -/
  stays : ∀ (index : Nat) (entry : FunctionTemplate),
    (registerAll [] declared)[index]? = some entry → ∀ more, ∃ later,
      (registerAll [] (declared ++ more))[index]? = some later ∧ entry.GivesWayTo later

theorem knownByKey (declared : List FunctionTemplate) : KnownByKey declared where
  nodup := nodup_keys_registerAll declared
  order := keys_registerAll declared
  standing k entry := by
    rw [← find?_registerAll, find?_eq_some_of_nodup (nodup_keys_registerAll declared)]
  stays index entry hentry more := by
    rw [registerAll_append]
    exact getElem?_registerAll more hentry

end FunctionTemplate

open FunctionTemplate

theorem forM_registerTemplate (declared : List FunctionTemplate) (s : State) :
    (declared.forM registerTemplate s).2.templates = registerAll s.templates declared := by
  induction declared generalizing s with
  | nil => rfl
  | cons t rest ih => exact ih _

/-! ## A whole lowering -/

/-- What happens to the templates between two states is that some are registered. -/
def Registers (s t : State) : Prop :=
  ∃ declared, t.templates = registerAll s.templates declared

variable {P : QualType → Prop} {scope : Scope} {s t u : State}

namespace Registers

theorem of_eq (h : t.templates = s.templates) : Registers s t := ⟨[], h⟩

theorem trans (first : Registers s t) (second : Registers t u) : Registers s u := by
  obtain ⟨declared, ht⟩ := first
  obtain ⟨more, hu⟩ := second
  exact ⟨declared ++ more, by rw [hu, ht, registerAll_append]⟩

theorem getElem? (h : Registers s t) {index : Nat} {entry : FunctionTemplate}
    (hentry : s.templates[index]? = some entry) :
    ∃ later, t.templates[index]? = some later ∧ entry.GivesWayTo later := by
  obtain ⟨declared, ht⟩ := h
  rw [ht]
  exact getElem?_registerAll declared hentry

end Registers

theorem Update.templates_eq (h : Update P scope s t) : t.templates = s.templates := by
  cases h <;> rfl

theorem CallOperator.templates_eq {index : Nat} (h : CallOperator P index s t) :
    t.templates = s.templates := by
  cases h <;> rfl

theorem Registration.registers {pending : Option (List TemplateParam)}
    (h : Registration P scope pending s t) : Registers s t := by
  cases h with
  | ordinary => exact .of_eq rfl
  | template template => exact ⟨[template], rfl⟩

theorem Effect.registers (h : Effect P scope s t) : Registers s t := by
  induction h with
  | refl => exact .of_eq rfl
  | trans _ _ ihFirst ihSecond => exact ihFirst.trans ihSecond
  | update h => exact .of_eq h.templates_eq
  | block _ ih | namespaceBody _ _ ih | record _ _ ih | specialization _ ih | typeParams _ _ ih
  | template _ _ _ ih => exact ih
  | lambda _ operator _ ihResult ihBody =>
    exact Registers.trans ihResult ((Registers.of_eq operator.templates_eq).trans ihBody)
  | function _ _ _ _ _ registration _ ihParams ihBody =>
    exact Registers.trans ihParams (registration.registers.trans ihBody)

theorem carries_registers (source : Source) : Carries source Registers where
  refl _ := .of_eq rfl
  trans := Registers.trans
  lowerPattern s index args template kind depth := by
    obtain ⟨t, heffect, hrun⟩ := lowerPattern_effect source template args kind depth
      { s with instantiated := (index, args) :: s.instantiated }
    rw [hrun]
    exact heffect.registers

variable {source : Source} {root : Node}

theorem sorted_registers (source : Source) (root : Node) : Registers {} (sorted source root) :=
  (walked_effect source root).registers

/-- There is a template at the index of every pair that has been instantiated. -/
def Indexed (s : State) : Prop :=
  ∀ pair ∈ s.instantiated, ∃ entry, s.templates[pair.1]? = some entry

-- The walk instantiates nothing.
theorem sorted_indexed (source : Source) (root : Node) : Indexed (sorted source root) := by
  have hnone : (walked source root).instantiated = [] :=
    (walked_effect source root).kept.instantiated
  intro pair hpair
  change pair ∈ (walked source root).instantiated at hpair
  rw [hnone] at hpair
  cases hpair

theorem maintains_indexed (source : Source) : Maintains source Indexed fun _ => True where
  good_of_mem _ _ := trivial
  lowerPattern {s use index template args} hs _ htemplate _ := by
    intro pair hpair
    have hregisters := (carries_registers source).lowerPattern s index args template use.kind
      use.depth
    rw [lowerPattern_instantiated] at hpair
    have hbefore : ∃ entry, s.templates[pair.1]? = some entry := by
      rcases List.mem_cons.mp hpair with rfl | hold
      · exact ⟨template, htemplate⟩
      · exact hs pair hold
    obtain ⟨entry, hentry⟩ := hbefore
    obtain ⟨later, hlater, -⟩ := hregisters.getElem? hentry
    exact ⟨later, hlater⟩

theorem exists_template_of_pair {a : Attempt} (ha : a ∈ attempts source root)
    {pair : Nat × List QualType} (hpair : a.pair? = some pair ∨ pair ∈ a.state.instantiated) :
    ∃ entry, a.state.templates[pair.1]? = some entry := by
  rcases hpair with hpair | hpair
  · obtain ⟨args, hargs, rfl⟩ := Option.map_eq_some_iff.mp hpair
    obtain ⟨entry, hentry, -⟩ := Option.bind_eq_some_iff.mp hargs
    exact ⟨entry, hentry⟩
  · exact (maintains_indexed source).of_mem_attempts (sorted_indexed source root) ha pair hpair

/-- In every state of a lowering, the templates are those declared so far, known by key. The index
of a pair that an attempt deduces, or that has been instantiated before it, stands for the same key
then and in the end, and a definition is never given up for a declaration without a body. -/
theorem templates_known_by_key :
    (∀ s declared,
      (declared.forM registerTemplate s).2.templates = registerAll s.templates declared) ∧
    (∀ declared, KnownByKey declared) ∧
    ∀ source root,
      (∃ declared, (finalState source root).templates = registerAll [] declared) ∧
      ∀ a ∈ attempts source root,
        (∃ declared, a.state.templates = registerAll [] declared) ∧
        ∀ pair, a.pair? = some pair ∨ pair ∈ a.state.instantiated →
          ∃ entry last, a.state.templates[pair.1]? = some entry ∧
            (finalState source root).templates[pair.1]? = some last ∧ entry.GivesWayTo last := by
  refine ⟨fun s declared => forM_registerTemplate declared s, knownByKey, fun source root => ?_⟩
  have hcarries := carries_registers source
  constructor
  · have hrun := hcarries.queue root 0 (finalState source root).uses.size
    rw [Nat.zero_add, queue_state_end] at hrun
    exact (sorted_registers source root).trans hrun
  · intro a ha
    obtain ⟨hbefore, hafter⟩ := hcarries.of_mem_attempts ha
    refine ⟨(sorted_registers source root).trans hbefore, fun pair hpair => ?_⟩
    obtain ⟨entry, hentry⟩ := exists_template_of_pair ha hpair
    obtain ⟨last, hlast, hway⟩ := hafter.getElem? hentry
    exact ⟨entry, last, hentry, hlast, hway⟩

end WidthCheck.Lowering
