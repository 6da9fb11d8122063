import WidthCheck.Lowering.Walk
import WidthCheck.Proofs.CType.Spelling
import WidthCheck.Proofs.ParseTree.Quotation
import WidthCheck.Proofs.Text.Words

/-!
# Specifiers of several keywords

The type of a specifier such as `unsigned const long` is read from the text between its first and
its last keyword. Blanks between the keywords make no difference. A comment between them becomes
part of the text, and then the specifier names no builtin type.
-/

namespace WidthCheck

/-! ## Texts in a source -/

namespace Source

/-- From one offset to another the source holds this text. -/
def Holds (src : Source) (start : Nat) (text : List Char) (stop : Nat) : Prop :=
  start ≤ stop ∧ (src.bytes.extract start stop).toList = Text.utf8 text

instance (src : Source) (start : Nat) (text : List Char) (stop : Nat) :
    Decidable (src.Holds start text stop) :=
  inferInstanceAs (Decidable (_ ∧ _))

variable {src : Source}

theorem Holds.append {start middle stop : Nat} {text more : List Char}
    (h : src.Holds start text middle) (hmore : src.Holds middle more stop) :
    src.Holds start (text ++ more) stop := by
  refine ⟨Nat.le_trans h.1 hmore.1, ?_⟩
  have hsplit : src.bytes.extract start stop =
      src.bytes.extract start middle ++ src.bytes.extract middle stop := by
    rw [Array.extract_append_extract, Nat.min_eq_left h.1, Nat.max_eq_right hmore.1]
  rw [hsplit, Array.toList_append, h.2, hmore.2, Text.utf8, Text.utf8, Text.utf8,
    List.flatMap_append]

theorem Holds.slice_eq {span : Span} {text : List Char}
    (h : src.Holds span.start text span.stop) : src.slice span = String.ofList text := by
  have hbytes : (⟨src.bytes.extract span.start span.stop⟩ : ByteArray) = text.utf8Encode := by
    apply ByteArray.ext
    apply Array.toList_inj.mp
    rw [h.2, List.utf8Encode, List.toList_data_toByteArray]
    rfl
  have hvalid := ByteArray.isValidUTF8_utf8Encode (l := text)
  rw [slice, hbytes, String.fromUTF8?, dif_pos hvalid]
  rfl

end Source

/-! ## The leaves of a specifier -/

/-- The nodes of a tree without children, from left to right. -/
def Node.leaves (n : Node) : List Node := n.nodes.filter (·.children.isEmpty)

namespace Source

/-- What a leaf of a specifier shows: a comment, a type keyword or a qualifier. -/
inductive Shows (src : Source) (leaf : Node) : List Char → Prop where
  | comment {c : Char} {rest : List Char} (hcomment : leaf.isComment = true)
      (hopening : c = '/' ∨ c = '*')
      (htext : src.Holds leaf.span.start ('/' :: c :: rest) leaf.span.stop) :
      Shows src leaf ('/' :: c :: rest)
  | word {word : String} (hcomment : leaf.isComment = false)
      (hword : word ∈ Builtin.keywords ∨ (Quals.ofWord? word).isSome = true)
      (htext : src.Holds leaf.span.start word.toList leaf.span.stop) :
      Shows src leaf word.toList

/-- Leaves that stand side by side from one offset to another, with nothing but blanks between
them. Two words have at least one blank between them. -/
inductive LaidOut (src : Source) : Nat → List Node → Nat → Prop where
  | last {leaf : Node} {text : List Char} (hleaf : src.Shows leaf text) :
      LaidOut src leaf.span.start [leaf] leaf.span.stop
  | cons {leaf next : Node} {rest : List Node} {text gap : List Char} {stop : Nat}
      (hleaf : src.Shows leaf text) (hgap : src.Holds leaf.span.stop gap next.span.start)
      (hblank : ∀ c ∈ gap, Text.isBlank c = true)
      (hapart : leaf.isComment = false → next.isComment = false → gap ≠ [])
      (hrest : LaidOut src next.span.start (next :: rest) stop) :
      LaidOut src leaf.span.start (leaf :: next :: rest) stop

/-- The words among the leaves of a specifier. -/
def specifierTokens (src : Source) (node : Node) : List String :=
  (node.leaves.filter (!·.isComment)).map src.text

/-- The words in the text of a specifier. -/
def specifierWords (src : Source) (node : Node) : List String :=
  (Text.words (src.text node).toList).map String.ofList

end Source

/-- The words that are left for the name of a type. -/
def Quals.others (words : List String) : List String :=
  words.filter fun word => (ofWord? word).isNone

/-- The words that add qualifiers or nothing to a type. -/
def Quals.words : List String :=
  ["const", "constexpr", "consteval", "volatile", "constinit", "mutable", "__restrict",
    "__restrict__", "restrict"]

theorem Quals.mem_words_of_isSome {word : String} (h : (ofWord? word).isSome = true) :
    word ∈ words := by
  unfold ofWord? at h
  split at h
  · rename_i hword
    rcases hword with rfl | rfl | rfl <;> decide
  split at h
  · rename_i hword
    rw [hword]
    decide
  split at h
  · rename_i hword
    rcases hword with rfl | rfl | rfl | rfl | rfl <;> decide
  · cases h

theorem plain_of_isWord {word : String}
    (h : word ∈ Builtin.keywords ∨ (Quals.ofWord? word).isSome = true) :
    word.toList ≠ [] ∧ ∀ c ∈ word.toList, Text.isBlank c = false ∧ c ≠ '/' := by
  have hword : ∀ word ∈ Builtin.keywords ++ Quals.words,
      word.toList ≠ [] ∧ ∀ c ∈ word.toList, (c.isAlphanum || c == '_') = true := by decide
  have hother : ∀ c ∈ '/' :: Text.blanks, (c.isAlphanum || c == '_') = false := by decide
  have hmem : word ∈ Builtin.keywords ++ Quals.words :=
    List.mem_append.mpr (h.imp_right Quals.mem_words_of_isSome)
  obtain ⟨hne, hletter⟩ := hword word hmem
  refine ⟨hne, fun c hc => ?_⟩
  have hplain : c ∉ '/' :: Text.blanks := by
    intro hin
    have hneither := hletter c hc
    rw [hother c hin] at hneither
    cases hneither
  rw [List.mem_cons, not_or] at hplain
  obtain ⟨hslash, hblank⟩ := hplain
  exact ⟨by simpa [Text.isBlank] using hblank, hslash⟩

namespace Source

variable {src : Source} {leaf : Node} {leaves : List Node} {text : List Char} {start stop : Nat}

theorem Shows.holds (h : src.Shows leaf text) :
    src.Holds leaf.span.start text leaf.span.stop := by
  cases h with
  | comment _ _ htext => exact htext
  | word _ _ htext => exact htext

theorem Shows.text_eq (h : src.Shows leaf text) : src.text leaf = String.ofList text :=
  h.holds.slice_eq

theorem Shows.slash_mem (h : src.Shows leaf text) (hcomment : leaf.isComment = true) :
    '/' ∈ text := by
  cases h with
  | comment _ _ _ => exact List.mem_cons_self
  | word hword _ _ => rw [hword] at hcomment; cases hcomment

theorem Shows.plain (h : src.Shows leaf text) (hcomment : leaf.isComment = false) :
    text ≠ [] ∧ ∀ c ∈ text, Text.isBlank c = false := by
  cases h with
  | comment hword _ _ => rw [hword] at hcomment; cases hcomment
  | word _ hword _ =>
    obtain ⟨hne, hplain⟩ := plain_of_isWord hword
    exact ⟨hne, fun c hc => (hplain c hc).1⟩

-- The induction is along the leaves; the text is that of the leaves and the gaps between them.
theorem LaidOut.exists_text (h : src.LaidOut start leaves stop) :
    ∃ text, src.Holds start text stop ∧
      ((∀ leaf ∈ leaves, leaf.isComment = false) →
        (Text.words text).map String.ofList = leaves.map src.text) ∧
      ((∃ leaf ∈ leaves, leaf.isComment = true) → '/' ∈ text) := by
  induction h with
  | last hleaf =>
    refine ⟨_, hleaf.holds, fun hnone => ?_, fun ⟨leaf, hmem, hcomment⟩ => ?_⟩
    · obtain ⟨hne, hplain⟩ := hleaf.plain (hnone _ List.mem_cons_self)
      rw [Text.words_of_plain hplain hne, List.map_singleton, List.map_singleton, hleaf.text_eq]
    · obtain rfl := List.mem_singleton.mp hmem
      exact hleaf.slash_mem hcomment
  | cons hleaf hgap hblank hapart _ ih =>
    obtain ⟨after, hafter, hwords, hslash⟩ := ih
    refine ⟨_, hleaf.holds.append (hgap.append hafter), fun hnone => ?_, ?_⟩
    · obtain ⟨hfirst, hrest⟩ := List.forall_mem_cons.mp hnone
      obtain ⟨hne, hplain⟩ := hleaf.plain hfirst
      have hsome := hapart hfirst (hrest _ List.mem_cons_self)
      rw [Text.words_append_of_plain hplain hne hblank hsome, List.map_cons, hwords hrest,
        ← hleaf.text_eq, ← List.map_cons]
    · rintro ⟨leaf, hmem, hcomment⟩
      rcases List.mem_cons.mp hmem with rfl | hmem
      · exact List.mem_append_left _ (hleaf.slash_mem hcomment)
      · exact List.mem_append_right _ (List.mem_append_right _ (hslash ⟨leaf, hmem, hcomment⟩))

variable {node : Node}

theorem specifier_of_sized (hkind : node.kind = .sizedTypeSpecifier) :
    src.specifier node =
      .keywords (Quals.others (src.specifierWords node))
        (Quals.ofWords (src.specifierWords node)) := by
  rw [specifier, hkind]
  rfl

theorem specifierWords_eq_tokens (hlaid : src.LaidOut node.span.start node.leaves node.span.stop)
    (hnone : ∀ leaf ∈ node.leaves, leaf.isComment = false) :
    src.specifierWords node = src.specifierTokens node := by
  obtain ⟨text, hholds, hwords, -⟩ := hlaid.exists_text
  have hkept : node.leaves.filter (!·.isComment) = node.leaves := by
    rw [List.filter_eq_self]
    intro leaf hleaf
    rw [hnone leaf hleaf]
    rfl
  rw [specifierWords, Source.text, hholds.slice_eq, String.toList_ofList, hwords hnone,
    specifierTokens, hkept]

-- A comment leaves a word with a slash among those that are taken for type keywords.
theorem exists_slash_of_comment (hlaid : src.LaidOut node.span.start node.leaves node.span.stop)
    (hcomment : ∃ leaf ∈ node.leaves, leaf.isComment = true) :
    ∃ word ∈ Quals.others (src.specifierWords node), '/' ∈ word.toList := by
  obtain ⟨text, hholds, -, hslash⟩ := hlaid.exists_text
  obtain ⟨word, hword, hin⟩ := Text.exists_mem_words (hslash hcomment) (by decide)
  have hmem : String.ofList word ∈ src.specifierWords node := by
    rw [specifierWords, Source.text, hholds.slice_eq, String.toList_ofList]
    exact List.mem_map_of_mem hword
  have hin' : '/' ∈ (String.ofList word).toList := by rwa [String.toList_ofList]
  refine ⟨String.ofList word, List.mem_filter.mpr ⟨hmem, ?_⟩, hin'⟩
  rw [← Option.not_isSome, Bool.not_eq_true', ← Bool.not_eq_true]
  exact fun hqualifier => ((plain_of_isWord (.inr hqualifier)).2 '/' hin').2 rfl

end Source

namespace Lowering

theorem Scope.resolve_of_not_isTypeName {scope : Scope} {name : String}
    (h : scope.isTypeName name = false) : scope.resolve name = .named name := by
  obtain ⟨hbinding, hparam⟩ := Bool.or_eq_false_iff.mp h
  have hlookup : scope.bindings.lookup name = none := by simpa using hbinding
  rw [resolve, hlookup]
  dsimp only
  rw [hparam]
  rfl

theorem mem_intercalate {c : Char} {word : String} {words : List String} (hword : word ∈ words)
    (hc : c ∈ word.toList) : c ∈ (" ".intercalate words).toList := by
  induction words with
  | nil => cases hword
  | cons first rest ih =>
    by_cases hrest : rest = []
    · subst hrest
      rw [← List.mem_singleton.mp hword, String.intercalate_singleton]
      exact hc
    · rw [String.intercalate_cons_of_ne_nil hrest, String.toList_append, String.toList_append]
      rcases List.mem_cons.mp hword with rfl | hmem
      · exact List.mem_append_left _ (List.mem_append_left _ hc)
      · exact List.mem_append_right _ (ih hmem)

/-- A specifier of several keywords names the builtin type that its type keywords spell, with the
qualifiers among them, if there is no comment between them. If there is one, the specifier is taken
for a name, which is its text without the qualifiers, and never for a builtin type. -/
theorem sizedSpecifier_reading (visit : Scope → Node → Lowering Unit) (scope : Scope) {node : Node}
    (hkind : node.kind = .sizedTypeSpecifier)
    (hlaid : scope.source.LaidOut node.span.start node.leaves node.span.stop) :
    ((∀ leaf ∈ node.leaves, leaf.isComment = false) → ∀ spelling,
      Builtin.canonical? (Quals.others (scope.source.specifierTokens node)) = some spelling →
      lowerSpecifier visit scope (scope.source.specifier node) =
        pure ((QualType.builtin spelling).withQuals
          (Quals.ofWords (scope.source.specifierTokens node)))) ∧
    ((∃ leaf ∈ node.leaves, leaf.isComment = true) →
      (∀ name : String, '/' ∈ name.toList → scope.isTypeName name = false) →
      lowerSpecifier visit scope (scope.source.specifier node) =
        pure (.base .named
          (" ".intercalate (Quals.others (scope.source.specifierWords node)))
          (Quals.ofWords (scope.source.specifierWords node)))) := by
  rw [Source.specifier_of_sized hkind, lowerSpecifier]
  refine ⟨fun hnone spelling hspelling => ?_, fun hcomment hnames => ?_⟩
  · rw [Source.specifierWords_eq_tokens hlaid hnone, hspelling]
  · obtain ⟨word, hword, hslash⟩ := Source.exists_slash_of_comment hlaid hcomment
    have hunknown : Builtin.canonical? (Quals.others (scope.source.specifierWords node)) =
        none := by
      rw [Option.eq_none_iff_forall_ne_some]
      intro s hs
      have hkeyword := Builtin.mem_keywords_of_canonical? hs word hword
      exact ((plain_of_isWord (.inl hkeyword)).2 '/' hslash).2 rfl
    rw [hunknown]
    dsimp only
    rw [Scope.resolve_of_not_isTypeName (hnames _ (mem_intercalate hword hslash)),
      QualType.named, QualType.withQuals, Quals.none_merge]

/-! ## Two specifiers of `unsigned long` -/

/-- A word of a specifier, from its place in the text. -/
def wordLeaf (word : String) (start stop : Nat) : Node :=
  .mk { kind := .other word, span := ⟨start, stop⟩, isNamed := false } []

/-- The tree of `unsigned const long`, with a line break before the last word. -/
def brokenSpecifier : Node :=
  .mk { kind := .sizedTypeSpecifier, span := ⟨0, 20⟩ } [
    wordLeaf "unsigned" 0 8,
    .mk { kind := .typeQualifier, span := ⟨9, 14⟩ } [wordLeaf "const" 9 14],
    wordLeaf "long" 16 20]

def brokenScope : Scope := { source := .ofString "unsigned const\n long" }

theorem brokenSpecifier_laidOut :
    brokenScope.source.LaidOut brokenSpecifier.span.start brokenSpecifier.leaves
      brokenSpecifier.span.stop := by
  have hunsigned : brokenScope.source.Shows (wordLeaf "unsigned" 0 8) "unsigned".toList :=
    .word (by decide) (.inl (by decide)) (by decide)
  have hconst : brokenScope.source.Shows (wordLeaf "const" 9 14) "const".toList :=
    .word (by decide) (.inr (by decide)) (by decide)
  have hlong : brokenScope.source.Shows (wordLeaf "long" 16 20) "long".toList :=
    .word (by decide) (.inl (by decide)) (by decide)
  have hspace : brokenScope.source.Holds 8 [' '] 9 := by decide
  have hbreak : brokenScope.source.Holds 14 ['\n', ' '] 16 := by decide
  exact .cons hunsigned hspace (by decide) (by decide)
    (.cons hconst hbreak (by decide) (by decide) (.last hlong))

/-- A comment between two words. -/
def remarkLeaf : Node := .mk { kind := .other "comment", span := ⟨9, 20⟩, isExtra := true } []

/-- The tree of `unsigned long` with a comment between the words. -/
def remarkedSpecifier : Node :=
  .mk { kind := .sizedTypeSpecifier, span := ⟨0, 25⟩ }
    [wordLeaf "unsigned" 0 8, remarkLeaf, wordLeaf "long" 21 25]

def remarkedScope : Scope := { source := .ofString "unsigned /* const */ long" }

theorem remarkedSpecifier_laidOut :
    remarkedScope.source.LaidOut remarkedSpecifier.span.start remarkedSpecifier.leaves
      remarkedSpecifier.span.stop := by
  have hunsigned : remarkedScope.source.Shows (wordLeaf "unsigned" 0 8) "unsigned".toList :=
    .word (by decide) (.inl (by decide)) (by decide)
  have hremark : remarkedScope.source.Shows remarkLeaf "/* const */".toList :=
    .comment (by decide) (.inr rfl) (by decide)
  have hlong : remarkedScope.source.Shows (wordLeaf "long" 21 25) "long".toList :=
    .word (by decide) (.inl (by decide)) (by decide)
  have hbefore : remarkedScope.source.Holds 8 [' '] 9 := by decide
  have hafter : remarkedScope.source.Holds 20 [' '] 21 := by decide
  exact .cons hunsigned hbefore (by decide) (by decide)
    (.cons hremark hafter (by decide) (by decide) (.last hlong))

-- The comment hides the type, and the word in it makes the rest of the text constant.
theorem sizedSpecifiers_reading :
    lowerSpecifier visit brokenScope (brokenScope.source.specifier brokenSpecifier) =
      pure (.base .builtin "unsigned long" .const) ∧
    lowerSpecifier visit remarkedScope (remarkedScope.source.specifier remarkedSpecifier) =
      pure (.base .named "unsigned /* */ long" .const) := by
  obtain ⟨hbroken, -⟩ := sizedSpecifier_reading visit brokenScope rfl brokenSpecifier_laidOut
  obtain ⟨-, hremarked⟩ := sizedSpecifier_reading visit remarkedScope rfl remarkedSpecifier_laidOut
  refine ⟨?_, ?_⟩
  · rw [hbroken (by decide) "unsigned long" (by decide)]
    exact congrArg pure (by decide)
  · rw [hremarked (by decide) fun _ _ => rfl]
    exact congrArg pure (by decide)

end Lowering

end WidthCheck
