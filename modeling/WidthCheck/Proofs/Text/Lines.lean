import WidthCheck.ParseTree.Source
import WidthCheck.Proofs.Text.Words

/-!
# Lines and offsets

A text has two kinds of line numbers: places in the list of its lines, and the line feeds among the
bytes before an offset. The two agree. The line with the number of an offset is the one that the
offset lies in, whether lines end in a line feed or in a carriage return and a line feed; only the
end of a text whose last line is closed lies in no line.
-/

namespace WidthCheck.Text

/-! ## Lines of a text -/

/-- Goes through a text line by line; the last line has no line feed and may be empty. -/
@[elab_as_elim]
theorem lineInduction {motive : List Char → Prop}
    (last : ∀ piece, '\n' ∉ piece → motive piece)
    (line : ∀ piece rest, '\n' ∉ piece → motive rest → motive (piece ++ '\n' :: rest))
    (cs : List Char) : motive cs := by
  induction hlength : cs.length using Nat.strongRecOn generalizing cs with
  | _ n ih =>
    by_cases h : '\n' ∈ cs
    · obtain ⟨piece, rest, rfl, hpiece⟩ := List.eq_append_cons_of_mem h
      refine line piece rest hpiece (ih rest.length ?_ rest rfl)
      rw [← hlength, List.length_append, List.length_cons]
      omega
    · exact last cs h

theorem ne_lineFeed_of_not_mem {piece : List Char} (h : '\n' ∉ piece) :
    ∀ c ∈ piece, (c == '\n') = false := by
  intro c hc
  rw [beq_eq_false_iff_ne]
  rintro rfl
  exact h hc

theorem lines_of_not_mem {piece : List Char} (h : '\n' ∉ piece) :
    lines piece = if piece = [] then [] else [piece] := by
  rw [lines, splitWhere_eq_singleton (ne_lineFeed_of_not_mem h)]
  rfl

theorem lines_append_cons {piece : List Char} (h : '\n' ∉ piece) (cs : List Char) :
    lines (piece ++ '\n' :: cs) = dropReturn piece :: lines cs := by
  rw [lines, lines, splitWhere_append_cons (ne_lineFeed_of_not_mem h) (beq_self_eq_true '\n')]
  cases hpieces : splitWhere (· == '\n') cs with
  | nil => exact absurd hpieces (splitWhere_ne_nil _ cs)
  | cons first rest => rfl

/-- A text that ends where a line does. -/
def IsClosed (cs : List Char) : Prop := cs = [] ∨ cs.getLast? = some '\n'

instance (cs : List Char) : Decidable (IsClosed cs) := inferInstanceAs (Decidable (_ ∨ _))

theorem isClosed_append_cons_iff (piece rest : List Char) :
    IsClosed (piece ++ '\n' :: rest) ↔ IsClosed rest := by
  cases rest <;> simp [IsClosed]

theorem isClosed_iff_of_not_mem {piece : List Char} (h : '\n' ∉ piece) :
    IsClosed piece ↔ piece = [] := by
  refine ⟨fun hclosed => hclosed.resolve_right fun hlast => ?_, .inl⟩
  exact h (List.mem_of_getLast? hlast)

theorem IsClosed.append {front back : List Char} (h : IsClosed front) (hback : IsClosed back) :
    IsClosed (front ++ back) := by
  rcases hback with rfl | hlast
  · rwa [List.append_nil]
  · exact .inr (by rw [List.getLast?_append, hlast, Option.some_or])

theorem lines_append {front : List Char} (h : IsClosed front) (cs : List Char) :
    lines (front ++ cs) = lines front ++ lines cs := by
  induction front using lineInduction with
  | last piece hpiece =>
    rw [(isClosed_iff_of_not_mem hpiece).mp h]
    rfl
  | line piece rest hpiece ih =>
    rw [isClosed_append_cons_iff] at h
    rw [List.append_assoc, List.cons_append, lines_append_cons hpiece, ih h,
      lines_append_cons hpiece, List.cons_append]

theorem length_lines {front : List Char} (h : IsClosed front) :
    (lines front).length = front.count '\n' := by
  induction front using lineInduction with
  | last piece hpiece =>
    rw [(isClosed_iff_of_not_mem hpiece).mp h]
    rfl
  | line piece rest hpiece ih =>
    rw [isClosed_append_cons_iff] at h
    rw [lines_append_cons hpiece, List.length_cons, ih h, List.count_append,
      List.count_eq_zero_of_not_mem hpiece, List.count_cons_self, Nat.zero_add]

/-! ## Line feeds among bytes -/

theorem utf8_append (cs ds : List Char) : utf8 (cs ++ ds) = utf8 cs ++ utf8 ds :=
  List.flatMap_append

-- Every byte of a character that takes several has its highest bit set.
theorem lineFeed_not_mem_utf8EncodeChar {c : Char} (hc : c ≠ '\n') :
    lineFeed ∉ String.utf8EncodeChar c := by
  have hcode : c.val.toNat ≠ 10 := fun h => hc (Char.ext (UInt32.toNat_inj.mp h))
  have hbyte {n : Nat} (hn : n < 256) (hten : n ≠ 10) : lineFeed ≠ UInt8.ofNat n := by
    intro h
    have hnat := congrArg UInt8.toNat h
    rw [UInt8.toNat_ofNat_of_lt' (by simpa using hn)] at hnat
    exact hten hnat.symm
  unfold String.utf8EncodeChar
  dsimp only
  split
  · rw [List.mem_singleton]
    exact hbyte (by omega) hcode
  split
  · simp only [List.mem_cons, List.not_mem_nil, or_false, not_or]
    exact ⟨hbyte (by omega) (by omega), hbyte (by omega) (by omega)⟩
  split
  · simp only [List.mem_cons, List.not_mem_nil, or_false, not_or]
    exact ⟨hbyte (by omega) (by omega), hbyte (by omega) (by omega), hbyte (by omega) (by omega)⟩
  · simp only [List.mem_cons, List.not_mem_nil, or_false, not_or]
    exact ⟨hbyte (by omega) (by omega), hbyte (by omega) (by omega), hbyte (by omega) (by omega),
      hbyte (by omega) (by omega)⟩

theorem lineFeed_not_mem_utf8 {piece : List Char} (h : '\n' ∉ piece) : lineFeed ∉ utf8 piece := by
  intro hmem
  obtain ⟨c, hc, hbyte⟩ := List.mem_flatMap.mp hmem
  refine lineFeed_not_mem_utf8EncodeChar ?_ hbyte
  rintro rfl
  exact h hc

theorem count_lineFeed_utf8 (cs : List Char) : (utf8 cs).count lineFeed = cs.count '\n' := by
  induction cs using lineInduction with
  | last piece hpiece =>
    rw [List.count_eq_zero_of_not_mem hpiece,
      List.count_eq_zero_of_not_mem (lineFeed_not_mem_utf8 hpiece)]
  | line piece rest hpiece ih =>
    have hfeed : utf8 ('\n' :: rest) = lineFeed :: utf8 rest := rfl
    rw [utf8_append, hfeed, List.count_append, List.count_append, List.count_cons_self,
      List.count_cons_self, ih, List.count_eq_zero_of_not_mem hpiece,
      List.count_eq_zero_of_not_mem (lineFeed_not_mem_utf8 hpiece)]

theorem bytes_ofString (text : String) :
    (Source.ofString text).bytes.toList = utf8 text.toList := by
  have hbytes : text.toUTF8 = text.toList.utf8Encode := by
    rw [String.toUTF8_eq_toByteArray, String.utf8Encode_toList]
  rw [Source.ofString, hbytes, List.utf8Encode, List.toList_data_toByteArray]
  rfl

theorem lineAt_ofString (text : String) (offset : Nat) :
    (Source.ofString text).lineAt offset =
      ((utf8 text.toList).take offset).count lineFeed + 1 := by
  rw [Source.lineAt, ← Array.count_toList, Array.toList_extract, List.extract_eq_take_drop,
    bytes_ofString]
  simp

theorem length_utf8 (text : String) : (utf8 text.toList).length = text.utf8ByteSize := by
  rw [← bytes_ofString, Array.length_toList, Source.ofString, String.toUTF8_eq_toByteArray]
  exact String.size_toByteArray

theorem lineAt_end (text : String) :
    (Source.ofString text).lineAt text.utf8ByteSize = text.toList.count '\n' + 1 := by
  rw [lineAt_ofString, ← length_utf8, List.take_length, count_lineFeed_utf8]

theorem lineAt_add (front cs : List Char) (offset : Nat) :
    (Source.ofString (String.ofList (front ++ cs))).lineAt ((utf8 front).length + offset) =
      front.count '\n' + (Source.ofString (String.ofList cs)).lineAt offset := by
  rw [lineAt_ofString, lineAt_ofString, String.toList_ofList, String.toList_ofList, utf8_append,
    List.take_length_add_append, List.count_append, count_lineFeed_utf8]
  omega

theorem lineAt_of_le {front : List Char} {offset : Nat} (h : offset ≤ (utf8 front).length)
    (cs : List Char) :
    (Source.ofString (String.ofList (front ++ cs))).lineAt offset =
      (Source.ofString (String.ofList front)).lineAt offset := by
  rw [lineAt_ofString, lineAt_ofString, String.toList_ofList, String.toList_ofList, utf8_append,
    List.take_append_of_le_length h]

-- The line feed at the end of a closed text is not before an offset in it.
theorem lineAt_le {front : List Char} (h : IsClosed front) {offset : Nat}
    (hoffset : offset < (utf8 front).length) :
    (Source.ofString (String.ofList front)).lineAt offset ≤ front.count '\n' := by
  rcases h with rfl | hlast
  · exact absurd hoffset (Nat.not_lt_zero offset)
  · obtain ⟨piece, rfl⟩ := List.getLast?_eq_some_iff.mp hlast
    rw [utf8_append, List.length_append, show (utf8 ['\n']).length = 1 from rfl] at hoffset
    have htake := (List.take_sublist offset (utf8 piece)).count_le lineFeed
    rw [lineAt_of_le (by omega), lineAt_ofString, String.toList_ofList, List.count_append,
      ← count_lineFeed_utf8 piece]
    exact Nat.succ_le_succ htake

/-! ## The line of an offset -/

/-- A line of a text in its place: what stands before it, the line itself, its line end, and what
stands after it. -/
structure PhysicalLine (cs : List Char) where
  before : List Char
  text : List Char
  ending : List Char
  after : List Char
  eq_append : before ++ (text ++ (ending ++ after)) = cs
  isClosed_before : IsClosed before
  not_mem_text : '\n' ∉ text
  ends : ending = ['\r', '\n'] ∨ ending = ['\n'] ∧ text.getLast? ≠ some '\r' ∨
    ending = [] ∧ after = [] ∧ text ≠ []

namespace PhysicalLine

variable {cs : List Char}

/-- The offset at which a line starts. -/
def start (l : PhysicalLine cs) : Nat := (utf8 l.before).length

/-- The offset after the line end. -/
def stop (l : PhysicalLine cs) : Nat := l.start + (utf8 (l.text ++ l.ending)).length

/-- The offsets that lie in a line, its line end included. The end of the text lies in the last
line if that has no line end. -/
def Holds (l : PhysicalLine cs) (offset : Nat) : Prop :=
  l.start ≤ offset ∧ (offset < l.stop ∨ l.ending = [] ∧ offset = l.stop)

instance (l : PhysicalLine cs) (offset : Nat) : Decidable (l.Holds offset) :=
  inferInstanceAs (Decidable (_ ∧ _))

-- A line that is closed ends in its only line feed.
theorem exists_closed (l : PhysicalLine cs) (h : l.ending ≠ []) :
    ∃ line, '\n' ∉ line ∧ dropReturn line = l.text ∧ l.text ++ l.ending = line ++ ['\n'] := by
  rcases l.ends with hending | ⟨hending, hlast⟩ | ⟨hending, -⟩
  · refine ⟨l.text ++ ['\r'], by simpa using l.not_mem_text, ?_, ?_⟩
    · rw [dropReturn, List.getLast?_concat, if_pos rfl, List.dropLast_concat]
    · rw [hending, List.append_assoc]
      rfl
  · refine ⟨l.text, l.not_mem_text, ?_, by rw [hending]⟩
    rw [dropReturn, if_neg hlast]
  · exact absurd hending h

theorem last_of_ending_eq_nil (l : PhysicalLine cs) (h : l.ending = []) :
    l.after = [] ∧ l.text ≠ [] := by
  rcases l.ends with hending | ⟨hending, -⟩ | ⟨-, hlast⟩
  · rw [h] at hending
    cases hending
  · rw [h] at hending
    cases hending
  · exact hlast

theorem getElem?_lines (l : PhysicalLine cs) : (lines cs)[l.before.count '\n']? = some l.text := by
  have hlines : lines cs = lines l.before ++ lines (l.text ++ (l.ending ++ l.after)) := by
    rw [← lines_append l.isClosed_before, l.eq_append]
  have hfirst : (lines (l.text ++ (l.ending ++ l.after)))[0]? = some l.text := by
    by_cases hending : l.ending = []
    · obtain ⟨hafter, hne⟩ := l.last_of_ending_eq_nil hending
      rw [hending, hafter, List.append_nil, List.append_nil, lines_of_not_mem l.not_mem_text,
        if_neg hne]
      rfl
    · obtain ⟨line, hline, htext, hclosed⟩ := l.exists_closed hending
      rw [← List.append_assoc, hclosed, List.append_assoc, List.singleton_append,
        lines_append_cons hline, htext]
      rfl
  rw [hlines, ← length_lines l.isClosed_before, List.getElem?_append_right (Nat.le_refl _),
    Nat.sub_self, hfirst]

-- The line feed of a line is its last byte, so that no offset in the line has it in front.
theorem Holds.lineFeed_not_mem {l : PhysicalLine cs} {offset : Nat} (h : l.Holds offset) :
    lineFeed ∉ (utf8 (l.text ++ l.ending)).take (offset - l.start) := by
  by_cases hending : l.ending = []
  · rw [hending, List.append_nil]
    exact fun hmem => lineFeed_not_mem_utf8 l.not_mem_text (List.mem_of_mem_take hmem)
  · obtain ⟨line, hline, -, hclosed⟩ := l.exists_closed hending
    have hlength : (utf8 (l.text ++ l.ending)).length = (utf8 line).length + 1 := by
      rw [hclosed, utf8_append, List.length_append]
      rfl
    have hstop : offset < l.stop := h.2.resolve_right fun hend => hending hend.1
    rw [stop, hlength] at hstop
    rw [hclosed, utf8_append, List.take_append_of_le_length (by have := h.1; omega)]
    exact fun hmem => lineFeed_not_mem_utf8 hline (List.mem_of_mem_take hmem)

theorem Holds.count_lineFeed {l : PhysicalLine cs} {offset : Nat} (h : l.Holds offset) :
    ((utf8 cs).take offset).count lineFeed = l.before.count '\n' := by
  have hbytes : utf8 cs = utf8 l.before ++ (utf8 (l.text ++ l.ending) ++ utf8 l.after) := by
    rw [← utf8_append, ← utf8_append, List.append_assoc, l.eq_append]
  have hwithin : offset - l.start ≤ (utf8 (l.text ++ l.ending)).length := by
    have hstop := h.2
    rw [stop] at hstop
    omega
  have hstart : (utf8 l.before).length = l.start := rfl
  rw [hbytes, List.take_append, List.take_of_length_le h.1, hstart,
    List.take_append_of_le_length hwithin, List.count_append, count_lineFeed_utf8,
    List.count_eq_zero_of_not_mem h.lineFeed_not_mem, Nat.add_zero]

theorem Holds.lineAt_eq {content : String} {l : PhysicalLine content.toList} {offset : Nat}
    (h : l.Holds offset) :
    (Source.ofString content).lineAt offset = l.before.count '\n' + 1 := by
  rw [lineAt_ofString, h.count_lineFeed]

-- The first line of a text ends in the first line feed.
theorem exists_first {piece : List Char} (h : '\n' ∉ piece) (rest : List Char) :
    ∃ l : PhysicalLine (piece ++ '\n' :: rest),
      l.before = [] ∧ l.text ++ l.ending = piece ++ ['\n'] := by
  by_cases hreturn : piece.getLast? = some '\r'
  · obtain ⟨front, rfl⟩ := List.getLast?_eq_some_iff.mp hreturn
    have hfront : '\n' ∉ front := fun hmem => h (List.mem_append_left _ hmem)
    refine ⟨⟨[], front, ['\r', '\n'], rest, ?_, .inl rfl, hfront, .inl rfl⟩, rfl, ?_⟩
    · simp
    · simp
  · exact ⟨⟨[], piece, ['\n'], rest, rfl, .inl rfl, h, .inr (.inl ⟨rfl, hreturn⟩)⟩, rfl, rfl⟩

theorem exists_last {piece : List Char} (h : '\n' ∉ piece) (hne : piece ≠ []) :
    ∃ l : PhysicalLine piece, l.before = [] ∧ l.text = piece ∧ l.ending = [] :=
  ⟨⟨[], piece, [], [], by simp, .inl rfl, h, .inr (.inr ⟨rfl, rfl, hne⟩)⟩, rfl, rfl, rfl⟩

/-- A line of a text as a line of the text with more in front. -/
def shift {front : List Char} (h : IsClosed front) (l : PhysicalLine cs) :
    PhysicalLine (front ++ cs) where
  before := front ++ l.before
  text := l.text
  ending := l.ending
  after := l.after
  eq_append := by rw [List.append_assoc, l.eq_append]
  isClosed_before := h.append l.isClosed_before
  not_mem_text := l.not_mem_text
  ends := l.ends

theorem shift_holds {front : List Char} (h : IsClosed front) {l : PhysicalLine cs} {offset : Nat}
    (hl : l.Holds offset) : (l.shift h).Holds ((utf8 front).length + offset) := by
  have hstart : (l.shift h).start = (utf8 front).length + l.start := by
    rw [start, shift, utf8_append, List.length_append]
    rfl
  have hstop : (l.shift h).stop = (utf8 front).length + l.stop := by
    rw [stop, hstart, stop, Nat.add_assoc]
    rfl
  obtain ⟨hle, hlt⟩ := hl
  rw [Holds, hstart, hstop]
  exact ⟨by omega, hlt.imp (by omega) fun hend => ⟨hend.1, by omega⟩⟩

theorem exists_holds (cs : List Char) {offset : Nat} (hle : offset ≤ (utf8 cs).length)
    (h : offset < (utf8 cs).length ∨ ¬IsClosed cs) : ∃ l : PhysicalLine cs, l.Holds offset := by
  induction cs using lineInduction generalizing offset with
  | last piece hpiece =>
    have hne : piece ≠ [] := by
      rintro rfl
      exact h.elim (Nat.not_lt_zero offset) fun hopen => hopen (.inl rfl)
    obtain ⟨l, hbefore, htext, hending⟩ := exists_last hpiece hne
    have hstart : l.start = 0 := by rw [start, hbefore]; rfl
    have hstop : l.stop = (utf8 piece).length := by
      rw [stop, hstart, htext, hending, List.append_nil, Nat.zero_add]
    rw [← hstop] at hle
    exact ⟨l, by omega, (Nat.lt_or_eq_of_le hle).imp_right fun hend => ⟨hending, hend⟩⟩
  | line piece rest hpiece ih =>
    have hfront : IsClosed (piece ++ ['\n']) := (isClosed_append_cons_iff piece []).mpr (.inl rfl)
    have hsplit : piece ++ '\n' :: rest = (piece ++ ['\n']) ++ rest := by simp
    have hlength : (utf8 (piece ++ '\n' :: rest)).length =
        (utf8 (piece ++ ['\n'])).length + (utf8 rest).length := by
      rw [hsplit, utf8_append, List.length_append]
    by_cases hoffset : offset < (utf8 (piece ++ ['\n'])).length
    · obtain ⟨l, hbefore, htext⟩ := exists_first hpiece rest
      have hstart : l.start = 0 := by rw [start, hbefore]; rfl
      refine ⟨l, by omega, .inl ?_⟩
      rwa [stop, hstart, htext, Nat.zero_add]
    · rw [isClosed_append_cons_iff] at h
      obtain ⟨more, rfl⟩ := Nat.exists_eq_add_of_le (Nat.le_of_not_lt hoffset)
      obtain ⟨l, hl⟩ := @ih more (by omega) (h.imp_left fun hlt => by omega)
      rw [hsplit]
      exact ⟨l.shift hfront, shift_holds hfront hl⟩

end PhysicalLine

end WidthCheck.Text
