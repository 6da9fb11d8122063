import WidthCheck.Proofs.Lowering.InstantiationMirror
import WidthCheck.Proofs.Lowering.Invariant

/-!
# Where the arguments of an instantiation come from

Around the function of every template that is known there is a template declaration of the tree, and
the parameters of the template are those kept for the parameters written there. So the arguments
that a use writes can be followed to the written parameters.
-/

namespace WidthCheck.Lowering

/-- A template declaration of the tree stands around the node, and these parameters are kept for
those it writes. -/
def DeclaredAround (source : Source) (root node : Node) (params : List TemplateParam) : Prop :=
  ∃ decl ∈ root.nodes, decl.kind = .templateDeclaration ∧ node ∈ decl.nodes ∧
    KeptFor (source.writtenParams decl) params

namespace DeclaredAround

variable {source : Source} {root n c : Node} {params : List TemplateParam}

theorem mem_nodes (h : DeclaredAround source root n params) : n ∈ root.nodes := by
  obtain ⟨decl, hdecl, -, hmem, -⟩ := h
  exact Node.mem_nodes_trans hdecl hmem

theorem below (h : DeclaredAround source root n params) (hc : c ∈ n.children) :
    DeclaredAround source root c params := by
  obtain ⟨decl, hdecl, hkind, hmem, hkept⟩ := h
  exact ⟨decl, hdecl, hkind, Node.mem_nodes_of_mem_children hmem hc, hkept⟩

theorem written (hn : n ∈ root.nodes) (hkind : n.kind = .templateDeclaration)
    (hkept : KeptFor (source.writtenParams n) params) : DeclaredAround source root n params :=
  ⟨n, hn, hkind, Node.mem_nodes_self n, hkept⟩

end DeclaredAround

/-- The nodes of a tree, with the template declarations around them. -/
def Origins.ofTree (source : Source) (root : Node) : Origins where
  pair := .reflOn source root
  Holds := DeclaredAround source root
  within := DeclaredAround.mem_nodes
  below := DeclaredAround.below
  written := DeclaredAround.written

/-- Every template that is known was declared around its function, and none waits for one. -/
structure Traced (source : Source) (root : Node) (s : State) : Prop where
  templates : ∀ template ∈ s.templates, DeclaredAround source root template.node template.params
  pendingTemplate : s.pendingTemplate = none
  frames : s.frames ≠ []

/-- A traversal outside the tree with these things built. -/
def Traversal.ofState (source : Source) (s : State) : Traversal :=
  { Traversal.withState { source } s with
    nestingExceeded := s.tooDeepAt.isSome
    warnings := s.tooDeepAt.toList }

theorem Traversal.state_ofState (source : Source) (s : State) : (ofState source s).state = s := by
  obtain ⟨_, _, _, _, _, _, _, _, _, _ | line⟩ := s <;> rfl

variable {source : Source} {root : Node} {s : State}

namespace Traced

/-- Where a traversal with these things built stands. -/
abbrev stand (_ : Traced source root s) : Stand :=
  { Stand.start source with outer := s.frames.tail.length }

theorem stands (hs : Traced source root s) :
    (Origins.ofTree source root).Stands 0 hs.stand (.ofState source s) where
  nesting_le := Nat.zero_le _
  deepest_le := Nat.zero_le _
  warnings_eq := by
    change s.tooDeepAt.toList.length = s.tooDeepAt.isSome.toNat
    cases s.tooDeepAt <;> rfl
  nesting_eq := rfl
  scope_eq := rfl
  height_eq := (List.length_tail_add_one s.frames (List.length_pos_of_ne_nil hs.frames)).symm
  pending_eq := .inl hs.pendingTemplate
  templates := hs.templates

-- A step that is mirrored by a traversal keeps what the traversal is watched for.
theorem after (hs : Traced source root s) {step : Traverse Unit} {walk : Lowering Unit}
    (h : (Origins.ofTree source root).Mirrors 0 hs.stand hs.stand step walk fun _ => True) :
    Traced source root (walk s).2 := by
  obtain ⟨-, hstate, hstands, -⟩ := h _ hs.stands
  rw [Traversal.state_ofState] at hstate
  rw [← hstate]
  refine ⟨hstands.templates, hstands.pending_eq.elim id id, ?_⟩
  exact List.ne_nil_of_length_pos (hstands.height_eq ▸ Nat.succ_pos _)

theorem initial (source : Source) (root : Node) : Traced source root {} :=
  ⟨fun _ hmem => absurd hmem List.not_mem_nil, rfl, List.cons_ne_nil _ _⟩

end Traced

-- A template is instantiated by visiting its function again, in the tree where it was found.
theorem maintains_traced (source : Source) (root : Node) :
    Maintains source (Traced source root) fun _ => True where
  good_of_mem _ _ := trivial
  lowerPattern {s use index template args} hs _ htemplate _ := by
    have hnext : Traced source root { s with instantiated := (index, args) :: s.instantiated } :=
      ⟨hs.templates, hs.pendingTemplate, hs.frames⟩
    have hdeclared := hs.templates template (List.mem_of_getElem? htemplate)
    exact hnext.after (Origins.lowerPattern_mirrors (Origins.within_at hdeclared.mem_nodes rfl))

theorem sorted_traced (source : Source) (root : Node) :
    Traced source root (sorted source root) := by
  have hwalked : Traced source root (walked source root) := by
    unfold walked
    exact (Traced.initial source root).after
      (Origins.visit_mirrors (Origins.within_at (Node.mem_nodes_self root) rfl))
  exact ⟨hwalked.templates, hwalked.pendingTemplate, hwalked.frames⟩

/-- Every template that is known comes from a template declaration of the tree around its function.
When a use instantiates it, a named type parameter of that declaration is bound to the argument that
is written at the place kept for the parameter, the last of its name deciding. This is the place at
which the parameter is written exactly if no type parameter without a name is written before it. -/
theorem explicit_argument_matched (source : Source) (root : Node) :
    (∀ template ∈ (finalState source root).templates,
      DeclaredAround source root template.node template.params) ∧
    ∀ a ∈ attempts source root, ∀ index args, a.pair? = some (index, args) →
      ∃ template decl, a.state.templates[index]? = some template ∧
        decl ∈ root.nodes ∧ decl.kind = .templateDeclaration ∧ template.node ∈ decl.nodes ∧
        KeptFor (source.writtenParams decl) template.params ∧
        ∀ i name, (source.writtenParams decl)[i]? = some (.type name) →
          (placeOf (source.writtenParams decl) i = i ↔
            .unnamedType ∉ (source.writtenParams decl).take i) ∧
          ∀ arg, a.use.explicit[placeOf (source.writtenParams decl) i]? = some arg →
            (∀ later, i < later → (source.writtenParams decl)[later]? = some (.type name) →
              a.use.explicit[placeOf (source.writtenParams decl) later]? = none) →
            ∃ ty, arg = some ty ∧
              (patternScope source template args a.use.kind a.use.depth).bindings.lookup name =
                some ty := by
  have hmaintains := maintains_traced source root
  have hsorted := sorted_traced source root
  refine ⟨(hmaintains.finalState hsorted).templates, fun a ha index args hpair => ?_⟩
  obtain ⟨deduced, hdeduced, heq⟩ := Option.map_eq_some_iff.mp hpair
  obtain ⟨rfl, rfl⟩ := Prod.mk.inj heq
  obtain ⟨template, htemplate, hargs⟩ := Option.bind_eq_some_iff.mp hdeduced
  obtain ⟨decl, hdecl, hkind, hmem, hkept⟩ :=
    (hmaintains.of_mem_attempts hsorted ha).templates template (List.mem_of_getElem? htemplate)
  refine ⟨template, decl, htemplate, hdecl, hkind, hmem, hkept, fun i name hname => ⟨?_, ?_⟩⟩
  · have hlt : i < (source.writtenParams decl).length := (List.getElem?_eq_some_iff.mp hname).1
    exact placeOf_eq_iff (Nat.le_of_lt hlt)
  · intro arg harg hlast
    exact hkept.lookup_bindings hargs hname harg hlast source a.use.kind a.use.depth

-- In `template <class, class T> T second(T v)` the place of `T` is the first one, so that
-- `second<int, long>` is instantiated with `int`.
example :
    placeOf [.unnamedType, .type "T"] 1 = 0 ∧
    deduce
      { name := "second"
        params := [{ name := "T", isType := true, default := none }]
        paramTypes := [.templateParam "T"], node := default, context := 0, records := [] }
      { name := "second"
        explicit := [some (.builtin "int"), some (.builtin "long")]
        callArgs := [some (.builtin "long")], kind := .implicitInstantiation, depth := 0 } =
      some [.builtin "int"] := by
  decide

end WidthCheck.Lowering
