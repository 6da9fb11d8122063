import WidthCheck.Lowering.Names
import WidthCheck.Lowering.WrittenType
import WidthCheck.Proofs.ParseTree.Quotation

/-!
# Reading nodes in two sources

Two sources give every quoted node the same text. Then names, specifiers, qualifiers and
declarators read from the tree are the same, and so is every written type.
-/

namespace WidthCheck

/-- Some nodes, closed under children, and two sources that are the same to a lowering of them: the
sources have their lines in common, and they agree in the quoted texts and in the explicit
instantiations that are marked `extern`. -/
structure SourcePair where
  left : Source
  right : Source
  Within : Node → Prop
  sameLines : left.SameLines right
  child : ∀ {n c : Node}, Within n → c ∈ n.children → Within c
  word : ∀ {n : Node}, Within n → n.kind.isWord = true → left.text n = right.text n
  quoted : ∀ {n c : Node}, Within n → c ∈ n.children → (n.quotes c || n.quotesAt c) = true →
    left.text c = right.text c
  external : ∀ {n : Node}, Within n → n.kind = .templateInstantiation →
    left.isExternal n = right.isExternal n

/-- Two results that are the same, with what is known of them. -/
def Same {α : Type} (P : α → Prop) (a b : α) : Prop := a = b ∧ P a

namespace SourcePair

/-- The nodes of a tree, with two sources that agree in what the tree quotes. -/
def ofTree (left right : Source) (root : Node) (sameLines : left.SameLines right)
    (quoted : ∀ n ∈ root.quoted, left.text n = right.text n)
    (external : ∀ n ∈ root.nodes, n.kind = .templateInstantiation →
      left.isExternal n = right.isExternal n) : SourcePair where
  left
  right
  Within n := n ∈ root.nodes
  sameLines
  child := Node.mem_nodes_of_mem_children
  word hn hword := quoted _ (Node.mem_quoted_of_isWord hn hword)
  quoted hn hc hquotes := quoted _ (Node.mem_quoted_of_quotes hn hc hquotes)
  external hn := external _ hn

/-- A source paired with itself. -/
def refl (source : Source) : SourcePair where
  left := source
  right := source
  Within _ := True
  sameLines := rfl
  child _ _ := trivial
  word _ _ := rfl
  quoted _ _ _ := rfl
  external _ _ := rfl

/-- The nodes of a tree, with a source paired with itself. -/
def reflOn (source : Source) (root : Node) : SourcePair :=
  ofTree source source root rfl (fun _ _ => rfl) fun _ _ _ => rfl

variable (pair : SourcePair)

/-- The pair with fewer nodes. -/
abbrev restrict (kept : Node → Prop) (hkept : ∀ {n c : Node}, kept n → c ∈ n.children → kept c) :
    SourcePair where
  left := pair.left
  right := pair.right
  Within n := pair.Within n ∧ kept n
  sameLines := pair.sameLines
  child hn hc := ⟨pair.child hn.1 hc, hkept hn.2 hc⟩
  word hn := pair.word hn.1
  quoted hn := pair.quoted hn.1
  external hn := pair.external hn.1

/-- The nodes with the same text in both sources. -/
def Shared (n : Node) : Prop := pair.Within n ∧ pair.left.text n = pair.right.text n

variable {pair} {n c : Node}

/-! ## Nodes -/

theorem Within.child (hn : pair.Within n) (hc : c ∈ n.children) : pair.Within c :=
  pair.child hn hc

theorem Within.field {f : Field} (hn : pair.Within n) (hc : n.field? f = some c) :
    pair.Within c :=
  hn.child (Node.mem_children_of_field? hc)

theorem Within.named (hn : pair.Within n) (hc : c ∈ n.named) : pair.Within c :=
  hn.child (Node.mem_children_of_mem_named hc)

theorem Within.ofKind {k : Kind} (hn : pair.Within n) (hc : n.ofKind? k = some c) :
    pair.Within c :=
  hn.child (Node.mem_children_of_ofKind? hc)

-- What the parameter list of a template holds.
theorem Within.listed {f : Field} (hn : pair.Within n)
    (hc : c ∈ ((n.field? f).map Node.named).getD []) : pair.Within c := by
  cases hlist : n.field? f with
  | none => simp [hlist] at hc
  | some list => exact (hn.field hlist).named (by simpa [hlist] using hc)

theorem Within.word {k : Kind} (hn : pair.Within n) (hkind : n.kind = k)
    (hword : k.isWord = true) : pair.Shared n :=
  ⟨hn, pair.word hn (by rw [hkind, hword])⟩

theorem Within.shared (hn : pair.Within n) (hc : c ∈ n.children)
    (hquotes : (n.quotes c || n.quotesAt c) = true) : pair.Shared c :=
  ⟨hn.child hc, pair.quoted hn hc hquotes⟩

theorem Within.spelled {f : Field} (hn : pair.Within n) (hf : f.isSpelled = true)
    (hc : n.field? f = some c) : pair.Shared c := by
  refine hn.shared (Node.mem_children_of_field? hc) (Bool.or_eq_true_iff.mpr (.inl ?_))
  unfold Node.quotes
  rw [Node.role_of_field? hc]
  cases f with
  | name | scope | size | operator => rfl
  | _ => cases hf

theorem Shared.collapsed_eq (hn : pair.Shared n) :
    pair.left.collapsed n = pair.right.collapsed n := by
  unfold Source.collapsed
  rw [hn.2]

theorem Within.map_text_eq {f : Field} (hn : pair.Within n) (hf : f.isSpelled = true) :
    (n.field? f).map pair.left.text = (n.field? f).map pair.right.text :=
  Option.map_congr fun _ hc => (hn.spelled hf hc).2

theorem Within.map_collapsed_eq {f : Field} (hn : pair.Within n) (hf : f.isSpelled = true) :
    (n.field? f).map pair.left.collapsed = (n.field? f).map pair.right.collapsed :=
  Option.map_congr fun _ hc => (hn.spelled hf hc).collapsed_eq

theorem location_eq (pair : SourcePair) (n : Node) :
    pair.left.location n = pair.right.location n :=
  pair.sameLines.location_eq n

/-! ## Names -/

theorem Within.innermostName (hn : pair.Within n) : pair.Within n.innermostName := by
  fun_induction Node.innermostName n with
  | case1 n _ name hname ih => exact ih (hn.field hname)
  | case2 | case3 => exact hn

theorem Shared.innermostName (hn : pair.Shared n) : pair.Shared n.innermostName := by
  fun_induction Node.innermostName n with
  | case1 n _ name hname ih => exact ih (hn.1.spelled rfl hname)
  | case2 | case3 => exact hn

theorem Shared.entityName_eq (hn : pair.Shared n) :
    pair.left.entityName n = pair.right.entityName n := by
  have hinner := hn.innermostName
  unfold Source.entityName
  dsimp only
  rw [hinner.2, hinner.collapsed_eq]

theorem Shared.simpleName_eq (hn : pair.Shared n) :
    pair.left.simpleName n = pair.right.simpleName n := by
  have hinner := hn.innermostName
  unfold Source.simpleName
  dsimp only
  rw [hinner.collapsed_eq, hinner.1.map_text_eq (f := .name) rfl]

theorem Within.map_simpleName_eq {f : Field} (hn : pair.Within n) (hf : f.isSpelled = true) :
    (n.field? f).map pair.left.simpleName = (n.field? f).map pair.right.simpleName :=
  Option.map_congr fun _ hc => (hn.spelled hf hc).simpleName_eq

/-! ## Specifiers and qualifiers -/

theorem qualifiers_eq {nodes : List Node} (hnodes : ∀ n ∈ nodes, pair.Within n) :
    pair.left.qualifiers nodes = pair.right.qualifiers nodes := by
  unfold Source.qualifiers
  congr 1
  apply List.map_congr_left
  intro n hn
  obtain ⟨hmem, hkind⟩ := List.mem_filter.mp hn
  rw [beq_iff_eq] at hkind
  exact ((hnodes n hmem).word hkind rfl).2

theorem Within.qualifiersOf_eq (hn : pair.Within n) :
    pair.left.qualifiersOf n = pair.right.qualifiersOf n :=
  qualifiers_eq fun _ hc => hn.child hc

/-- A specifier that defines a type does so at a node of the tree. -/
def SpecifierWithin (pair : SourcePair) : Specifier → Prop
  | .definition node _ => pair.Within node
  | _ => True

theorem Within.specifierWithin (hn : pair.Within n) :
    pair.SpecifierWithin (pair.left.specifier n) := by
  unfold Source.specifier
  split
  case h_6 | h_7 | h_8 | h_9 => exact hn
  case h_4 | h_5 => split <;> trivial
  all_goals trivial

-- A definition is read by its name alone.
theorem specifier_of_isDefinition (src : Source) (hkind : n.kind.isDefinition = true) :
    src.specifier n = .definition n ((n.field? .name).map src.collapsed) := by
  unfold Kind.isDefinition at hkind
  split at hkind
  case h_5 => cases hkind
  all_goals
    rename_i hdefinition
    simp only [Source.specifier, hdefinition]

theorem Within.specifier_same (hn : pair.Within n)
    (hread : n.kind.isDefinition = true ∨ pair.Shared n) :
    Same pair.SpecifierWithin (pair.left.specifier n) (pair.right.specifier n) := by
  refine ⟨?_, hn.specifierWithin⟩
  rcases hread with hdefinition | hshared
  · rw [specifier_of_isDefinition _ hdefinition, specifier_of_isDefinition _ hdefinition,
      hn.map_collapsed_eq rfl]
  · unfold Source.specifier
    rw [hshared.2, hshared.collapsed_eq, hn.map_collapsed_eq (f := .name) rfl]

-- A child that is quoted unless it is a definition is the same specifier in both sources.
theorem Within.childSpecifier_same (hn : pair.Within n) (hc : c ∈ n.children)
    (hquotes : c.kind.isDefinition = false → n.quotes c = true) :
    Same pair.SpecifierWithin (pair.left.specifier c) (pair.right.specifier c) := by
  refine (hn.child hc).specifier_same ?_
  cases hdefinition : c.kind.isDefinition with
  | true => exact .inl rfl
  | false => exact .inr (hn.shared hc (by rw [hquotes hdefinition, Bool.true_or]))

theorem Within.specifierOf_same (hn : pair.Within n) (howner : n.hasSpecifier = true) :
    Same pair.SpecifierWithin (pair.left.specifierOf n) (pair.right.specifierOf n) := by
  unfold Source.specifierOf
  cases htype : n.field? .type with
  | none => exact ⟨rfl, trivial⟩
  | some type =>
    refine hn.childSpecifier_same (Node.mem_children_of_field? htype) fun hdefinition => ?_
    unfold Node.quotes
    rw [Node.role_of_field? htype]
    simp [howner, hdefinition]

theorem Within.defaultType_same (hn : pair.Within n) (hc : n.field? .defaultType = some c) :
    Same pair.SpecifierWithin (pair.left.specifier c) (pair.right.specifier c) := by
  refine hn.childSpecifier_same (Node.mem_children_of_field? hc) fun hdefinition => ?_
  unfold Node.quotes
  rw [Node.role_of_field? hc]
  simp [hdefinition]

end SourcePair

/-! ## Declarators -/

section

variable (pair : SourcePair)

mutual

/-- The nodes in a declarator are of the tree, and those of names have the same text in both
sources. -/
def Declarator.Shared : Declarator → Prop
  | .anonymous => True
  | .named node => pair.Shared node
  | .pointer _ inner | .reference _ inner | .array _ inner => inner.Shared
  | .function params inner => (∀ list ∈ params, pair.Within list) ∧ inner.Shared
  | .trailing params result inner =>
      (∀ list ∈ params, pair.Within list) ∧ result.Shared ∧ inner.Shared
  | .conversion name target => pair.Shared name ∧ target.Shared

/-- The nodes in a written type are of the tree, as in a declarator. -/
def WrittenType.Shared : WrittenType → Prop
  | .mk specifier _ declarator => pair.SpecifierWithin specifier ∧ declarator.Shared

end

/-- A node is read as the same declarator in both sources. -/
def SourcePair.ReadsSame (n : Node) : Prop :=
  Same (Declarator.Shared pair) (pair.left.declarator n) (pair.right.declarator n)

/-- A node that may be read as a declarator: it is taken apart, or it is a name. -/
def SourcePair.Readable (n : Node) : Prop :=
  pair.Within n ∧ (n.kind.isLayer = true ∨ pair.Shared n)

/-- What can be read below a node is read as the same declarator in both sources. -/
def SourcePair.ReadsBelow (n : Node) : Prop :=
  ∀ c, sizeOf c < sizeOf n → pair.Readable c → pair.ReadsSame c

end

theorem Same.written {pair : SourcePair} {specifier specifier' : Specifier} {quals quals' : Quals}
    {declarator declarator' : Declarator}
    (hspecifier : Same pair.SpecifierWithin specifier specifier') (hquals : quals = quals')
    (hdeclarator : Same (Declarator.Shared pair) declarator declarator') :
    Same (WrittenType.Shared pair) (.mk specifier quals declarator)
      (.mk specifier' quals' declarator') := by
  obtain ⟨rfl, hwithin⟩ := hspecifier
  obtain ⟨rfl, hshared⟩ := hdeclarator
  exact ⟨congrArg (fun q => WrittenType.mk specifier q declarator) hquals, hwithin, hshared⟩

namespace SourcePair

variable {pair : SourcePair} {n c : Node}

theorem Within.readable_of_role (hn : pair.Within n) (hc : c ∈ n.children)
    (hrole : c.label.field = some .declarator) : pair.Readable c := by
  refine ⟨hn.child hc, ?_⟩
  by_cases hlayer : c.kind.isLayer = true
  · exact .inl hlayer
  · refine .inr (hn.shared hc (Bool.or_eq_true_iff.mpr (.inl ?_)))
    unfold Node.quotes
    rw [hrole]
    simp [hlayer]

theorem Within.readable_of_field (hn : pair.Within n) (hc : n.field? .declarator = some c) :
    pair.Readable c :=
  hn.readable_of_role (Node.mem_children_of_field? hc) (Node.role_of_field? hc)

theorem Within.readable_of_fieldAll (hn : pair.Within n) (hc : c ∈ n.fieldAll .declarator) :
    pair.Readable c := by
  obtain ⟨hmem, hrole⟩ := List.mem_filter.mp hc
  exact hn.readable_of_role hmem (by simpa using hrole)

theorem Within.readable_of_wrapper (hn : pair.Within n) (hkind : n.kind.isWrapper = true)
    (hc : c ∈ n.children) : pair.Readable c := by
  refine ⟨hn.child hc, ?_⟩
  by_cases hlayer : c.kind.isLayer = true
  · exact .inl hlayer
  · refine .inr (hn.shared hc (Bool.or_eq_true_iff.mpr (.inr ?_)))
    simp [Node.quotesAt, hkind, hlayer]

theorem Within.declaratorField_same (hn : pair.Within n) (hbelow : pair.ReadsBelow n) :
    Same (Declarator.Shared pair) (pair.left.declaratorField n) (pair.right.declaratorField n) := by
  rw [Source.declaratorField, Source.declaratorField]
  split
  · rename_i inner hinner
    exact hbelow inner (Node.sizeOf_lt_of_mem_children (Node.mem_children_of_field? hinner))
      (hn.readable_of_field hinner)
  · exact ⟨rfl, trivial⟩

theorem Within.typeDescriptor_same (hn : pair.Within n) (howner : n.hasSpecifier = true)
    (hbelow : pair.ReadsBelow n) :
    Same (WrittenType.Shared pair) (pair.left.typeDescriptor n) (pair.right.typeDescriptor n) := by
  rw [Source.typeDescriptor, Source.typeDescriptor]
  exact .written (hn.specifierOf_same howner) hn.qualifiersOf_eq (hn.declaratorField_same hbelow)

-- What stands after the arrow of a function is quoted unless it is a definition, a type
-- descriptor or an abstract declarator that is taken apart.
theorem Within.shared_of_trailing (hn : pair.Within n) (hkind : n.kind = .trailingReturnType)
    (hc : c ∈ n.named) (hdescriptor : c.kind ≠ .typeDescriptor)
    (hdefinition : c.kind.isDefinition = false)
    (hlayer : (c.kind.isLayer && c.kind.isAbstract) = false) : pair.Shared c := by
  refine hn.shared (Node.mem_children_of_mem_named hc) (Bool.or_eq_true_iff.mpr (.inr ?_))
  unfold Node.quotesAt
  simp [hkind, hdescriptor, hdefinition, hlayer]

theorem not_isDefinition_of_isAbstract {k : Kind} (h : k.isAbstract = true) :
    k.isDefinition = false := by
  cases k <;> first | rfl | cases h

theorem Within.trailingType_same (hn : pair.Within n) (hkind : n.kind = .trailingReturnType)
    (hbelow : pair.ReadsBelow n) :
    Same (WrittenType.Shared pair) (pair.left.trailingType n) (pair.right.trailingType n) := by
  have hsize : ∀ c ∈ n.named, sizeOf c < sizeOf n := fun c hc =>
    Node.sizeOf_lt_of_mem_children (Node.mem_children_of_mem_named hc)
  rw [Source.trailingType, Source.trailingType]
  split
  · rename_i descriptor hfound
    have hmem : descriptor ∈ n.named := List.mem_of_find?_eq_some hfound
    have hdescriptor : descriptor.kind = .typeDescriptor := by simpa using List.find?_some hfound
    refine (hn.named hmem).typeDescriptor_same ?_ fun c hc =>
      hbelow c (Nat.lt_trans hc (hsize _ hmem))
    exact Node.hasSpecifier_of_kind hdescriptor rfl
  · rename_i hnone
    have hother : ∀ c ∈ n.named, c.kind ≠ .typeDescriptor := by simpa using hnone
    refine .written ?_ (qualifiers_eq fun c hc => hn.named hc) ?_
    · split
      · rename_i c hfound
        have hmem : c ∈ n.named := List.mem_of_find?_eq_some hfound
        have hplain : c.kind.isAbstract = false := by
          have hspecifier := List.find?_some hfound
          simp_all
        refine (hn.named hmem).specifier_same ?_
        cases hdefinition : c.kind.isDefinition with
        | true => exact .inl rfl
        | false =>
          exact .inr (hn.shared_of_trailing hkind hmem (hother c hmem) hdefinition
            (by rw [hplain, Bool.and_false]))
      · exact ⟨rfl, trivial⟩
    · split
      · rename_i c hfound
        have hmem : c ∈ n.named := List.mem_reverse.mp (List.mem_of_find?_eq_some hfound)
        have habstract : c.kind.isAbstract = true := by simpa using List.find?_some hfound
        refine hbelow c (hsize c hmem) ⟨hn.named hmem, ?_⟩
        cases hlayer : c.kind.isLayer with
        | true => exact .inl rfl
        | false =>
          exact .inr (hn.shared_of_trailing hkind hmem (hother c hmem)
            (not_isDefinition_of_isAbstract habstract) (by rw [hlayer, Bool.false_and]))
      · exact ⟨rfl, trivial⟩

-- A child that is found as the inner declarator of a wrapper.
theorem Within.inner_same (hn : pair.Within n) (hkind : n.kind.isWrapper = true)
    (hbelow : pair.ReadsBelow n) {c : Node} (hc : c ∈ n.named) : pair.ReadsSame c :=
  have hchild := Node.mem_children_of_mem_named hc
  hbelow c (Node.sizeOf_lt_of_mem_children hchild) (hn.readable_of_wrapper hkind hchild)

-- A conversion operator is read by its own text and by the type below it.
theorem Shared.conversion_same (hn : pair.Shared n) (hkind : n.innermostName.kind = .operatorCast)
    (hbelow : pair.ReadsBelow n) :
    Same (Declarator.Shared pair) (.conversion n (pair.left.typeDescriptor n.innermostName))
      (.conversion n (pair.right.typeDescriptor n.innermostName)) := by
  have howner := Node.hasSpecifier_of_kind hkind rfl
  obtain ⟨heq, hshared⟩ := hn.innermostName.1.typeDescriptor_same howner fun c hc =>
    hbelow c (Nat.lt_of_lt_of_le hc (Node.sizeOf_innermostName_le n))
  exact ⟨congrArg (Declarator.conversion n) heq, hn, hshared⟩

-- The type after the arrow of a function is read from below the function.
theorem Within.result_same {result : Node} (hn : pair.Within n) (hbelow : pair.ReadsBelow n)
    (hresult : n.ofKind? .trailingReturnType = some result) :
    Same (WrittenType.Shared pair) (pair.left.trailingType result)
      (pair.right.trailingType result) := by
  have hlt := Node.sizeOf_lt_of_mem_children (Node.mem_children_of_ofKind? hresult)
  have hkind : result.kind = .trailingReturnType := by simpa using List.find?_some hresult
  exact (hn.ofKind hresult).trailingType_same hkind fun c hc => hbelow c (Nat.lt_trans hc hlt)

-- The layers of a declarator are read from below it; a name is read from its own text.
theorem Readable.readsSame_of_below (hn : pair.Readable n) (hbelow : pair.ReadsBelow n) :
    pair.ReadsSame n := by
  obtain ⟨hwithin, hread⟩ := hn
  obtain ⟨hfield, hinner⟩ := hwithin.declaratorField_same hbelow
  have hparams : ∀ list ∈ n.field? .parameters, pair.Within list := fun _ hlist =>
    hwithin.field hlist
  have hshared : n.kind.isLayer = false → pair.Shared n := fun hlayer =>
    hread.resolve_left (by rw [hlayer]; exact Bool.false_ne_true)
  unfold ReadsSame
  rw [Source.declarator, Source.declarator]
  split
  case h_1 => exact ⟨hfield, hinner⟩
  case h_2 | h_3 =>
    rename_i hkind
    split
    · rename_i inner hhead
      exact hwithin.inner_same (by rw [hkind]; rfl) hbelow (List.mem_of_mem_head? hhead)
    · exact ⟨rfl, trivial⟩
  case h_4 | h_5 =>
    rw [← hfield, hwithin.qualifiersOf_eq]
    exact ⟨rfl, hinner⟩
  case h_6 | h_7 =>
    rename_i hkind
    split
    · rename_i inner hlast
      obtain ⟨heq, hread⟩ :=
        hwithin.inner_same (by rw [hkind]; rfl) hbelow (List.mem_of_getLast? hlast)
      exact ⟨congrArg _ heq, hread⟩
    · exact ⟨rfl, trivial⟩
  case h_8 | h_9 =>
    rw [← hfield, hwithin.map_collapsed_eq rfl]
    exact ⟨rfl, hinner⟩
  case h_10 | h_11 =>
    rw [← hfield]
    split
    · rename_i result hresult
      obtain ⟨hwritten, hread⟩ := hwithin.result_same hbelow hresult
      rw [← hwritten]
      exact ⟨rfl, hparams, hread, hinner⟩
    · exact ⟨rfl, hparams, hinner⟩
  case h_12 =>
    rename_i hkind
    have hself : n.innermostName = n := by rw [Node.innermostName, hkind]; rfl
    have hconversion := (hshared (by rw [hkind]; rfl)).conversion_same (by rw [hself, hkind]) hbelow
    rwa [hself] at hconversion
  case h_13 =>
    rename_i hkind
    have hname := hshared (by rw [hkind]; rfl)
    split
    · rename_i hcast
      exact hname.conversion_same hcast hbelow
    · exact ⟨rfl, hname⟩
  case h_14 =>
    refine ⟨rfl, hshared ?_⟩
    unfold Kind.isLayer
    split <;> first | rfl | contradiction

theorem Readable.readsSame (hn : pair.Readable n) : pair.ReadsSame n := by
  induction hsize : sizeOf n using Nat.strongRecOn generalizing n with
  | ind size ih =>
    exact hn.readsSame_of_below fun c hlt hc => ih _ (hsize ▸ hlt) hc rfl

theorem readsBelow (pair : SourcePair) (n : Node) : pair.ReadsBelow n :=
  fun _ _ hc => hc.readsSame

end SourcePair

end WidthCheck
