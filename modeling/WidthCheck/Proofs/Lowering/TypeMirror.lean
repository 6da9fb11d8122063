import WidthCheck.Proofs.Lowering.Mirror

/-!
# Lowering a written type is mirrored

A written type is read from the tree alike in both sources, and the traversal comes back to where it
stood from the records and enumerations that are defined in the type.
-/

namespace WidthCheck

/-- What a declarator declares has a name with one text and parameters of the pair. -/
structure SourcePair.DeclaredShared (pair : SourcePair) (declared : Lowering.Declared) : Prop where
  name : ∀ node ∈ declared.name, pair.Shared node
  params : ∀ list ∈ declared.params, pair.Within list

namespace Lowering.Origins

variable {K : Origins} {nesting : Nat} {p : Stand} {hands : Traverser} {below : Walker}
  {node : Node}

/-- At this level of nesting, visiting a node and inferring its type are mirrored, and the traversal
comes back to where it stood. -/
structure Hands (K : Origins) (nesting : Nat) (hands : Traverser) (below : Walker) : Prop where
  visit : ∀ (p : Stand) (node : Node), (K.at p.pending).Within node →
    K.Mirrors nesting p p (hands.visit node) (below.visit (K.view p) node) fun _ => True
  infer : ∀ (p : Stand) (node : Node), (K.at p.pending).Within node →
    K.Mirrors nesting p p (hands.infer node) (below.infer (K.view p) node) fun _ => True

theorem lowerSpecifier_mirrors (hbelow : K.Hands nesting hands below) {specifier : Specifier}
    (hspecifier : (K.at p.pending).SpecifierWithin specifier) :
    K.Mirrors nesting p p (Traversal.lowerSpecifier hands specifier)
      (lowerSpecifier below.visit (K.view p) specifier) fun _ => True := by
  cases specifier with
  | definition node name =>
    exact .bind (hbelow.visit p node hspecifier) fun _ _ => .pure trivial
  | keywords words quals | name text => exact .here (.pure trivial)
  | absent | placeholder text | verbatim text => exact .pure trivial

mutual

theorem applyDeclarator_mirrors (hbelow : K.Hands nesting hands below) (declarator : Declarator)
    (ty : QualType) (params : Option Node) (hshared : declarator.Shared (K.at p.pending))
    (hparams : ∀ list ∈ params, (K.at p.pending).Within list) :
    K.Mirrors nesting p p (Traversal.applyDeclarator hands declarator ty params)
      (applyDeclarator below.visit (K.view p) declarator ty params)
      (K.at p.pending).DeclaredShared := by
  have hnone : ∀ list ∈ (none : Option Node), (K.at p.pending).Within list := by simp
  cases declarator with
  | anonymous => exact .pure ⟨by simp, hparams⟩
  | named node =>
    have hname : (K.at p.pending).Shared node := hshared
    exact .pure ⟨by simpa using hname, hparams⟩
  | pointer quals inner | reference rvalue inner | array bound inner =>
    exact applyDeclarator_mirrors hbelow inner _ none hshared hnone
  | function params inner =>
    exact applyDeclarator_mirrors hbelow inner _ params hshared.2 hshared.1
  | trailing params result inner =>
    obtain ⟨hown, hresult, hinner⟩ := hshared
    refine .branch (fun _ => ?_) fun _ => ?_
    · exact .bind (lowerWritten_mirrors hbelow result hresult) fun written _ =>
        applyDeclarator_mirrors hbelow inner _ params hinner hown
    · exact applyDeclarator_mirrors hbelow inner _ params hinner hown
  | conversion name target =>
    obtain ⟨hname, htarget⟩ := hshared
    exact .bind (lowerWritten_mirrors hbelow target htarget) fun written hwritten =>
      .pure ⟨by simpa using hname, hwritten.params⟩

theorem lowerWritten_mirrors (hbelow : K.Hands nesting hands below) (written : WrittenType)
    (hshared : written.Shared (K.at p.pending)) :
    K.Mirrors nesting p p (Traversal.lowerWritten hands written)
      (lowerWritten below.visit (K.view p) written) (K.at p.pending).DeclaredShared := by
  cases written with
  | mk specifier quals declarator =>
    exact .bind (lowerSpecifier_mirrors hbelow hshared.1) fun base _ =>
      applyDeclarator_mirrors hbelow declarator _ none hshared.2 (by simp)

end

variable (hbelow : K.Hands nesting hands below)

include hbelow

theorem baseType_mirrors (hnode : (K.at p.pending).Within node)
    (howner : node.hasSpecifier = true) :
    K.Mirrors nesting p p (Traversal.baseType hands node) (baseType below.visit (K.view p) node)
      fun _ => True := by
  obtain ⟨hspecifier, hwithin⟩ := hnode.specifierOf_same howner
  refine .here ?_
  unfold baseType
  simp only [Scope.reading_source]
  rw [← hspecifier, ← hnode.qualifiersOf_eq]
  exact .bind (lowerSpecifier_mirrors hbelow hwithin) fun _ _ => .pure trivial

theorem applyNode_mirrors {declarator : Option Node}
    (hdeclarator : ∀ node ∈ declarator, (K.at p.pending).Readable node) (base : QualType) :
    K.Mirrors nesting p p (Traversal.applyNode hands declarator base)
      (applyNode below.visit (K.view p) declarator base) (K.at p.pending).DeclaredShared := by
  refine .here ?_
  unfold applyNode
  cases declarator with
  | none => exact applyDeclarator_mirrors hbelow .anonymous base none trivial (by simp)
  | some node =>
    obtain ⟨heq, hshared⟩ := (hdeclarator node rfl).readsSame
    simp only [Scope.reading_source, Option.map_some, Option.getD_some]
    rw [← heq]
    exact applyDeclarator_mirrors hbelow _ base none hshared (by simp)

theorem lowerDeclaration_mirrors (hnode : (K.at p.pending).Within node)
    (howner : node.hasSpecifier = true) :
    K.Mirrors nesting p p (Traversal.lowerDeclaration hands node)
      (lowerDeclaration below.visit (K.view p) node) (K.at p.pending).DeclaredShared :=
  .bind (baseType_mirrors hbelow hnode howner) fun base _ =>
    applyNode_mirrors hbelow (fun _ hc => hnode.readable_of_field hc) base

theorem lowerDescriptor_mirrors (hnode : (K.at p.pending).Within node)
    (howner : node.hasSpecifier = true) :
    K.Mirrors nesting p p (Traversal.lowerDescriptor hands node)
      (lowerDescriptor below.visit (K.view p) node) fun _ => True := by
  obtain ⟨heq, hshared⟩ :=
    hnode.typeDescriptor_same howner ((K.at p.pending).readsBelow node)
  refine .here ?_
  unfold lowerDescriptor
  simp only [Scope.reading_source]
  rw [← heq]
  exact .bind (lowerWritten_mirrors hbelow _ hshared) fun _ _ => .pure trivial

omit hbelow in
-- A name is resolved alike, whichever of the two sources it is read from.
theorem resolve_mirrors (hword : (K.at p.pending).Shared node) :
    K.Mirrors nesting p p
      (do let scope ← Traversal.here; return some (scope.resolve (scope.source.text node)))
      (pure (some ((K.view p).resolve ((K.view p).source.text node)))) fun _ => True := by
  refine .here ?_
  simp only [Scope.reading_source]
  rw [hword.2]
  exact .pure trivial

theorem castDestination_mirrors (hnode : (K.at p.pending).Within node) :
    K.Mirrors nesting p p (Traversal.castDestination hands node)
      (castDestination below.visit (K.view p) node) fun _ => True := by
  unfold Traversal.castDestination
  split
  case h_1 hkind =>
    simp only [castDestination, hkind]
    exact .bind (lowerDescriptor_mirrors hbelow hnode (Node.hasSpecifier_of_kind hkind rfl))
      fun _ _ => .pure trivial
  case h_2 hkind | h_3 hkind =>
    simp only [castDestination, hkind]
    exact resolve_mirrors (hnode.word hkind rfl)
  case h_4 =>
    have hwalk : castDestination below.visit (K.view p) node = pure none := by
      unfold castDestination
      split <;> first | contradiction | rfl
    rw [hwalk]
    exact .pure trivial

theorem templateArgument_mirrors (hnode : (K.at p.pending).Within node) :
    K.Mirrors nesting p p (Traversal.templateArgument hands node)
      (templateArgument below.visit (K.view p) node) fun _ => True := by
  unfold Traversal.templateArgument
  split
  case h_1 hkind =>
    simp only [templateArgument, hkind]
    exact .bind (lowerDescriptor_mirrors hbelow hnode (Node.hasSpecifier_of_kind hkind rfl))
      fun _ _ => .pure trivial
  case h_2 hkind =>
    have hword := (hnode.word hkind rfl).2
    refine .here ?_
    simp only [templateArgument, hkind, Scope.reading_source, hword]
    exact .pure trivial
  case h_3 =>
    have hwalk : templateArgument below.visit (K.view p) node = pure none := by
      unfold templateArgument
      split <;> first | contradiction | rfl
    rw [hwalk]
    exact .pure trivial

theorem parameterType_mirrors (hnode : (K.at p.pending).Within node)
    (hkind : node.kind.isParameter = true) :
    K.Mirrors nesting p p (Traversal.parameterType hands node)
      (parameterType below.visit (K.view p) node) fun _ => True :=
  .bind (lowerDeclaration_mirrors hbelow hnode (Node.hasSpecifier_of_isParameter hkind))
    fun _ _ => .pure trivial

theorem parameterTypes_mirrors (hnode : (K.at p.pending).Within node) :
    K.Mirrors nesting p p (Traversal.parameterTypes hands node)
      (parameterTypes below.visit (K.view p) node) fun _ => True := by
  refine .bind (.mapM _ fun param hparam => ?_) fun _ _ => .pure trivial
  obtain ⟨hmem, hkind⟩ := List.mem_filter.mp hparam
  exact parameterType_mirrors hbelow (hnode.named hmem) hkind

end Lowering.Origins

end WidthCheck
