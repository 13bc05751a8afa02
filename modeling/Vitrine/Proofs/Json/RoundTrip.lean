import Vitrine.Proofs.Json.Reading

/-!
# Reading JSON back

Every JSON text that was written is read member by member, and only the numbers in it may be changed
or refused (`read_written`). A text is read as the value that it was written for (`read_write`), unless
that holds doubles, longer integers than are read, or two members of one name.
-/
namespace Vitrine
namespace Json

/-- Styles that leave only blanks behind commas and colons. -/
structure Style.IsReadable (style : Style) : Prop where
  item : ∃ blanks, style.itemSep.toList = ',' :: blanks ∧ ∀ b ∈ blanks, isSpace b = true
  name : ∃ blanks, style.nameSep.toList = ':' :: blanks ∧ ∀ b ∈ blanks, isSpace b = true

theorem isReadable_spaced : spaced.IsReadable :=
  ⟨⟨[' '], by decide, by decide⟩, ⟨[' '], by decide, by decide⟩⟩

theorem isReadable_compact : compact.IsReadable :=
  ⟨⟨[], by decide, by decide⟩, ⟨[], by decide, by decide⟩⟩

mutual

/-- Values that are read back: without doubles, without integers of more digits than are read, and
without two members of one name. -/
def IsReadable : Json → Prop
  | .int n => (Decimal.digitChars n.natAbs).length ≤ Decimal.digitLimit
  | .float _ => False
  | .array items => AreReadable items
  | .object members => (members.map (·.1)).Nodup ∧ AreReadableMembers members
  | _ => True

def AreReadable : List Json → Prop
  | [] => True
  | j :: js => j.IsReadable ∧ AreReadable js

def AreReadableMembers : List (String × Json) → Prop
  | [] => True
  | (_, j) :: ms => j.IsReadable ∧ AreReadableMembers ms

end

theorem quote_eq (ascii : Bool) (s : String) :
    (quote ascii s).toList = '"' :: (s.toList.flatMap (escapeChar ascii) ++ ['"']) := by
  simp [quote, quoteChars]


/-! ## What is read of a text -/

/-- The word for a double that is no number, and what is read of it. -/
def constantOf (x : Float) : String × Json :=
  if Decimal.isInfinite x then
    if Decimal.isNegative x then ("-Infinity", .float Decimal.negativeInfinity)
    else ("Infinity", .float Decimal.infinity)
  else ("NaN", .float Decimal.notANumber)

theorem constantOf_mem (x : Float) : constantOf x ∈ constantTable := by
  rw [constantOf]
  split
  · split
    · exact List.mem_cons_of_mem _ (List.mem_cons_of_mem _ List.mem_cons_self)
    · exact List.mem_cons_of_mem _ List.mem_cons_self
  · exact List.mem_cons_self

theorem floatText_of_none {x : Float} (h : Decimal.Binary.ofFloat? x = none) :
    Decimal.floatText specials x = (constantOf x).1 := by
  rw [Decimal.floatText, h, constantOf]
  dsimp only
  split
  · split <;> rfl
  · rfl

mutual

/-- What is read of the text of a value: numbers are read from their digits, doubles that are no
numbers are read or refused by their words, and of members with one name the last one counts. -/
def reread (constants : Bool) : Json → Except ReadError Json
  | .int n => ofNumber (Decimal.intChars n) true
  | .float x =>
    match Decimal.Binary.ofFloat? x with
    | some b => ofNumber (Decimal.standard.chars b) false
    | none => if constants then .ok (constantOf x).2 else .error (.constant (constantOf x).1)
  | .array items => do return .array (← rereadItems constants items)
  | .object members => do return .object (collectMembers (← rereadMembers constants members))
  | j => .ok j

def rereadItems (constants : Bool) : List Json → Except ReadError (List Json)
  | [] => .ok []
  | j :: js => do return (← j.reread constants) :: (← rereadItems constants js)

def rereadMembers (constants : Bool) :
    List (String × Json) → Except ReadError (List (String × Json))
  | [] => .ok []
  | (name, j) :: ms => do return (name, ← j.reread constants) :: (← rereadMembers constants ms)

end

theorem rereadItems_singleton (constants : Bool) (j : Json) :
    rereadItems constants [j] = do return [← j.reread constants] := by
  rw [rereadItems, rereadItems]
  cases j.reread constants <;> rfl

theorem rereadMembers_singleton (constants : Bool) (name : String) (j : Json) :
    rereadMembers constants [(name, j)] = do return [(name, ← j.reread constants)] := by
  rw [rereadMembers, rereadMembers]
  cases j.reread constants <;> rfl

/-! ## How texts begin -/

/-- A number is a numeral, or a word for a double that is no number. -/
theorem write_number (style : Style) (constants : Bool) {j : Json}
    (hj : (∃ n, j = .int n) ∨ ∃ x, j = .float x) :
    (∃ negative m, (j.write style).toList = Decimal.Numeral.chars negative m ∧
      j.reread constants = ofNumber (Decimal.Numeral.chars negative m) m.isWhole) ∨
    ∃ w ∈ constantTable, (j.write style).toList = w.1.toList ∧
      j.reread constants = if constants then .ok w.2 else .error (.constant w.1) := by
  rcases hj with ⟨n, rfl⟩ | ⟨x, rfl⟩
  · refine Or.inl ⟨n < 0, Decimal.Numeral.ofNat n.natAbs, ?_, ?_⟩
    · rw [← Decimal.intChars_eq]
      simp [write, Decimal.intText]
    · rw [← Decimal.intChars_eq, reread]
      rfl
  · cases hx : Decimal.Binary.ofFloat? x with
    | some b =>
      obtain ⟨m, hm, hchars⟩ := Decimal.chars_standard b
      refine Or.inl ⟨b.negative, m, ?_, ?_⟩
      · rw [write, Decimal.floatText, hx, ← hchars]
        exact String.toList_ofList
      · rw [reread, hx, ← hchars, hm]
    | none =>
      refine Or.inr ⟨constantOf x, constantOf_mem x, ?_, ?_⟩
      · rw [write, floatText_of_none hx]
      · rw [reread, hx]

/-- A character that a value may begin with: of ASCII, and neither blank nor a closing bracket. -/
def Begins (c : Char) : Prop := isSpace c = false ∧ c ≠ ']' ∧ c ≠ '\x7d' ∧ c.toNat < 0x80

instance (c : Char) : Decidable (Begins c) :=
  inferInstanceAs (Decidable (isSpace c = false ∧ c ≠ ']' ∧ c ≠ '\x7d' ∧ c.toNat < 0x80))

theorem begins_digit {c : Char} (hc : Text.isAsciiDigit c = true) : Begins c := by
  have hne : ∀ d, Text.isAsciiDigit d = false → c ≠ d :=
    fun d hd => Decimal.ne_of_isAsciiDigit hc hd
  refine ⟨?_, hne _ (by decide), hne _ (by decide), ?_⟩
  · simp [isSpace, hne ' ' (by decide), hne '\t' (by decide), hne '\n' (by decide),
      hne '\r' (by decide)]
  · have hdigit := Decimal.isAsciiDigit_iff.mp hc
    omega

theorem write_head (style : Style) (j : Json) :
    ∃ c cs, (j.write style).toList = c :: cs ∧ Begins c := by
  have hnumber : ((∃ n, j = .int n) ∨ ∃ x, j = .float x) →
      ∃ c cs, (j.write style).toList = c :: cs ∧ Begins c := by
    intro hj
    rcases write_number style true hj with ⟨negative, m, hm, -⟩ | ⟨w, hw, hword, -⟩
    · obtain ⟨c, cs, hc, hcs⟩ := m.chars_append negative []
      rw [List.append_nil] at hcs
      rcases hcs with hcs | hcs
      · exact ⟨c, cs, hm.trans hcs, begins_digit hc⟩
      · exact ⟨'-', c :: cs, hm.trans hcs, by decide⟩
    · simp only [constantTable, List.mem_cons, List.not_mem_nil, or_false] at hw
      rcases hw with rfl | rfl | rfl
      · exact ⟨'N', _, hword, by decide⟩
      · exact ⟨'I', _, hword, by decide⟩
      · exact ⟨'-', _, hword, by decide⟩
  cases j with
  | null => exact ⟨'n', "ull".toList, by rw [write]; rfl, by decide⟩
  | bool b =>
    cases b
    · exact ⟨'f', "alse".toList, by rw [write]; rfl, by decide⟩
    · exact ⟨'t', "rue".toList, by rw [write]; rfl, by decide⟩
  | int n => exact hnumber (Or.inl ⟨n, rfl⟩)
  | float x => exact hnumber (Or.inr ⟨x, rfl⟩)
  | str s => exact ⟨'"', _, by rw [write]; exact quote_eq style.ascii s, by decide⟩
  | array items => exact ⟨'[', (writeItems style items).toList ++ [']'], by simp [write], by decide⟩
  | object members =>
    exact ⟨'\x7b', (writeMembers style members).toList ++ ['\x7d'], by simp [write], by decide⟩

/-- Items begin as the first of them does. -/
theorem writeItems_head (style : Style) {js : List Json} (hne : js ≠ []) :
    ∃ c cs, (writeItems style js).toList = c :: cs ∧ Begins c := by
  match js, hne with
  | [j], _ => exact write_head style j
  | j :: k :: ks, _ =>
    obtain ⟨c, cs, hwrite, hc⟩ := write_head style j
    refine ⟨c, cs ++ style.itemSep.toList ++ (writeItems style (k :: ks)).toList, ?_, hc⟩
    simp [writeItems, hwrite]

theorem writeMembers_head (style : Style) {ms : List (String × Json)} (hne : ms ≠ []) :
    ∃ cs, (writeMembers style ms).toList = '"' :: cs := by
  match ms, hne with
  | [(name, j)], _ =>
    exact ⟨_, by simp only [writeMembers, String.toList_append, quote_eq]; rfl⟩
  | (name, j) :: m :: ms, _ =>
    exact ⟨_, by simp only [writeMembers, String.toList_append, quote_eq]; rfl⟩
/-! ## Whole values -/

section Whole

variable {constants : Bool} {style : Style}

theorem ends_of_mark {c : Char} (h : c = ']' ∨ c = '\x7d' ∨ c = ',') (cs : List Char) :
    Ends (c :: cs) := by
  intro d ds hd
  rw [← (List.cons.inj hd).1]
  rcases h with rfl | rfl | rfl <;> decide

theorem answers_number {j : Json} (hj : (∃ n, j = .int n) ∨ ∃ x, j = .float x) {rest : List Char}
    (he : Ends rest) :
    Answers (readValue constants) ((j.write style).toList ++ rest) (j.reread constants) rest := by
  rcases write_number style constants hj with ⟨negative, m, hm, hreread⟩ | ⟨w, hw, hword, hreread⟩
  · have hread := answers_chars constants negative m he
    obtain ⟨c, cs, hc, hcs⟩ := m.chars_append negative rest
    rw [hm, hreread]
    rcases hcs with hcs | hcs
    · have hne : ∀ d, Text.isAsciiDigit d = false → c ≠ d :=
        fun d hd => Decimal.ne_of_isAsciiDigit hc hd
      rw [hcs] at hread ⊢
      exact answers_atom (hne _ (by decide)) (hne _ (by decide)) (hne _ (by decide)) hread
    · rw [hcs] at hread ⊢
      exact answers_atom (by decide) (by decide) (by decide) hread
  · have hread := answers_constant constants hw rest
    rw [hword, hreread]
    simp only [constantTable, List.mem_cons, List.not_mem_nil, or_false] at hw
    rcases hw with rfl | rfl | rfl <;>
      exact answers_atom (by decide) (by decide) (by decide) hread

theorem answers_word {word : String} {j : Json} (hw : (word, j) ∈ wordTable) (rest : List Char) :
    Answers (readValue constants) (word.toList ++ rest) (.ok j) rest := by
  have hread : Answers (readAtom constants) (word.toList ++ rest) (.ok j) rest :=
    reads_word constants hw rest
  simp only [wordTable, List.mem_cons, Prod.mk.injEq, List.not_mem_nil, or_false] at hw
  rcases hw with ⟨rfl, -⟩ | ⟨rfl, -⟩ | ⟨rfl, -⟩ <;>
    exact answers_atom (by decide) (by decide) (by decide) hread

mutual

theorem answers_write (hstyle : style.IsReadable) (j : Json) {rest : List Char} (he : Ends rest) :
    Answers (readValue constants) ((j.write style).toList ++ rest) (j.reread constants) rest := by
  cases j with
  | null =>
    rw [write, reread]
    · exact answers_word List.mem_cons_self rest
    all_goals simp
  | bool b =>
    rw [write, reread]
    · cases b
      · exact answers_word (List.mem_cons_of_mem _ (List.mem_cons_of_mem _ List.mem_cons_self)) rest
      · exact answers_word (List.mem_cons_of_mem _ List.mem_cons_self) rest
    all_goals simp
  | int n => exact answers_number (Or.inl ⟨n, rfl⟩) he
  | float x => exact answers_number (Or.inr ⟨x, rfl⟩) he
  | str s =>
    rw [write, quote_eq, List.cons_append, List.append_assoc, List.singleton_append, reread]
    · exact answers_str fun start => reads_string style.ascii s rest
    all_goals simp
  | array items =>
    have htext : (write style (.array items)).toList ++ rest =
        '[' :: ((writeItems style items).toList ++ ']' :: rest) := by simp [write]
    rw [htext, reread]
    refine answers_array ?_
    by_cases hempty : items = []
    · rw [hempty, rereadItems]
      exact answers_no_items rest
    · obtain ⟨c, cs, hwrite, hc⟩ := writeItems_head style hempty
      have hmore := answers_writeItems hstyle items hempty rest
      rw [hwrite, List.cons_append] at hmore ⊢
      exact answers_items hc.1 hc.2.1 hmore
  | object members =>
    have htext : (write style (.object members)).toList ++ rest =
        '\x7b' :: ((writeMembers style members).toList ++ '\x7d' :: rest) := by simp [write]
    rw [htext, reread]
    refine answers_object ?_
    by_cases hempty : members = []
    · rw [hempty, rereadMembers]
      exact answers_no_members rest
    · obtain ⟨cs, hwrite⟩ := writeMembers_head style hempty
      have hmore := answers_writeMembers hstyle members hempty rest
      rw [hwrite, List.cons_append] at hmore ⊢
      exact answers_members (by decide) (by decide) hmore

theorem answers_writeItems (hstyle : style.IsReadable) (js : List Json) (hne : js ≠ [])
    (rest : List Char) :
    Answers (readMoreItems constants) ((writeItems style js).toList ++ ']' :: rest)
      (rereadItems constants js) rest := by
  match js, hne with
  | [j], _ =>
    rw [writeItems, rereadItems_singleton]
    exact answers_last_item (answers_write hstyle j (ends_of_mark (Or.inl rfl) rest))
  | j :: k :: ks, _ =>
    obtain ⟨blanks, hsep, hblanks⟩ := hstyle.item
    obtain ⟨c, cs, hwrite, hc⟩ := writeItems_head style (List.cons_ne_nil k ks)
    have hothers := answers_writeItems hstyle (k :: ks) (List.cons_ne_nil k ks) rest
    have htext : (writeItems style (j :: k :: ks)).toList ++ ']' :: rest =
        (j.write style).toList ++ ',' :: (blanks ++ c :: (cs ++ ']' :: rest)) := by
      simp [writeItems, hsep, hwrite]
    rw [hwrite] at hothers
    rw [htext, rereadItems]
    exact answers_more_items hblanks hc.1
      (answers_write hstyle j (ends_of_mark (Or.inr (Or.inr rfl)) _)) hothers

theorem answers_writeMembers (hstyle : style.IsReadable) (ms : List (String × Json)) (hne : ms ≠ [])
    (rest : List Char) :
    Answers (readMoreMembers constants) ((writeMembers style ms).toList ++ '\x7d' :: rest)
      (rereadMembers constants ms) rest := by
  match ms, hne with
  | [(name, j)], _ =>
    obtain ⟨blanks, hcolon, hblanks⟩ := hstyle.name
    obtain ⟨c, cs, hwrite, hc⟩ := write_head style j
    have htext : (writeMembers style [(name, j)]).toList ++ '\x7d' :: rest =
        '"' :: (name.toList.flatMap (escapeChar style.ascii) ++
          '"' :: ':' :: (blanks ++ c :: (cs ++ '\x7d' :: rest))) := by
      simp [writeMembers, quote_eq, hcolon, hwrite]
    have hvalue := answers_write hstyle j (ends_of_mark (Or.inr (Or.inl rfl)) rest)
    rw [hwrite] at hvalue
    rw [htext, rereadMembers_singleton]
    exact answers_last_member (fun start => reads_string style.ascii name _) hblanks hc.1 hvalue
  | (name, j) :: (next, k) :: ms, _ =>
    obtain ⟨blanks, hcolon, hblanks⟩ := hstyle.name
    obtain ⟨between, hcomma, hbetween⟩ := hstyle.item
    obtain ⟨c, cs, hwrite, hc⟩ := write_head style j
    obtain ⟨ds, hnext⟩ := writeMembers_head style (List.cons_ne_nil (next, k) ms)
    have hothers := answers_writeMembers hstyle ((next, k) :: ms) (List.cons_ne_nil _ _) rest
    have htext : (writeMembers style ((name, j) :: (next, k) :: ms)).toList ++ '\x7d' :: rest =
        '"' :: (name.toList.flatMap (escapeChar style.ascii) ++ '"' :: ':' :: (blanks ++
          c :: (cs ++ ',' :: (between ++ '"' :: (ds ++ '\x7d' :: rest))))) := by
      simp [writeMembers, quote_eq, hcolon, hcomma, hwrite, hnext]
    have hvalue := answers_write hstyle j
      (ends_of_mark (Or.inr (Or.inr rfl)) (between ++ '"' :: (ds ++ '\x7d' :: rest)))
    rw [hwrite] at hvalue
    rw [hnext] at hothers
    rw [htext, rereadMembers]
    exact answers_more_members (fun start => reads_string style.ascii name _) hblanks hc.1 hvalue
      hbetween (by decide) hothers

end

end Whole

/-- What is read of a text that was written. -/
theorem read_written (constants : Bool) {style : Style} (hstyle : style.IsReadable) (j : Json) :
    read constants (j.write style) = j.reread constants := by
  have hends : Ends [] := fun _ _ h => nomatch h
  obtain ⟨c, cs, hwrite, hc⟩ := write_head style j
  obtain ⟨hs, hskip⟩ := skipSpace_nonspace hc.1 0 cs
  have hanswers : Answers (readValue constants) ((j.write style).toList ++ []) (j.reread constants)
      [] := answers_write hstyle j hends
  rw [List.append_nil, hwrite] at hanswers
  have hmark : ¬ (c :: cs).head? = some (Char.ofNat 0xfeff) := by
    intro h
    rw [Option.some.inj h] at hc
    exact absurd hc.2.2.2 (by decide)
  rw [read, hwrite]
  dsimp only
  rw [if_neg hmark, hskip]
  dsimp only
  cases hj : j.reread constants with
  | error e =>
    rw [hj] at hanswers
    rw [hanswers 0]
    rfl
  | ok k =>
    rw [hj] at hanswers
    obtain ⟨p, hs', hvalue⟩ := hanswers 0
    rw [hvalue]
    rfl

/-! ## Values that are read back -/

theorem setMember_of_notMem {name : String} (j : Json) {ms : List (String × Json)}
    (h : name ∉ ms.map (·.1)) : setMember name j ms = ms ++ [(name, j)] := by
  induction ms with
  | nil => rfl
  | cons m ms ih =>
    rw [List.map_cons, List.mem_cons, not_or] at h
    rw [setMember, if_neg (Ne.symm h.1), ih h.2, List.cons_append]

/-- Members of different names stay as they are. -/
theorem collectMembers_of_nodup {ms : List (String × Json)} (h : (ms.map (·.1)).Nodup) :
    collectMembers ms = ms := by
  have hgeneral : ∀ before : List (String × Json), ((before ++ ms).map (·.1)).Nodup →
      ms.foldl (fun ms m => setMember m.1 m.2 ms) before = before ++ ms := by
    clear h
    induction ms with
    | nil =>
      intro before _
      rw [List.foldl_nil, List.append_nil]
    | cons m ms ih =>
      intro before hb
      have hm : m.1 ∉ before.map (·.1) := by
        intro hmem
        rw [List.map_append, List.map_cons] at hb
        exact (List.nodup_append.mp hb).2.2 _ hmem _ List.mem_cons_self rfl
      rw [List.foldl_cons, setMember_of_notMem m.2 hm, ih]
      · rw [List.append_assoc, List.singleton_append]
      · rwa [List.append_assoc, List.singleton_append]
  exact hgeneral [] h
mutual

theorem reread_of_isReadable (constants : Bool) (j : Json) (hj : j.IsReadable) :
    j.reread constants = .ok j := by
  cases j with
  | int n => rw [reread, ofNumber, if_pos rfl, Decimal.int?_intChars hj]
  | float x => exact hj.elim
  | array items =>
    rw [reread, rereadItems_of_areReadable constants items hj]
    rfl
  | object members =>
    rw [reread, rereadMembers_of_areReadable constants members hj.2]
    exact congrArg (Except.ok ∘ object) (collectMembers_of_nodup hj.1)
  | _ =>
    rw [reread]
    all_goals simp

theorem rereadItems_of_areReadable (constants : Bool) (js : List Json) (hj : AreReadable js) :
    rereadItems constants js = .ok js := by
  cases js with
  | nil => rw [rereadItems]
  | cons j js =>
    rw [rereadItems, reread_of_isReadable constants j hj.1,
      rereadItems_of_areReadable constants js hj.2]
    rfl

theorem rereadMembers_of_areReadable (constants : Bool) (ms : List (String × Json))
    (hj : AreReadableMembers ms) : rereadMembers constants ms = .ok ms := by
  match ms, hj with
  | [], _ => rw [rereadMembers]
  | (name, j) :: ms, hj =>
    rw [rereadMembers, reread_of_isReadable constants j hj.1,
      rereadMembers_of_areReadable constants ms hj.2]
    rfl

end

/-- A text that was written is read as its value. -/
theorem read_write (constants : Bool) {style : Style} (hstyle : style.IsReadable) {j : Json}
    (hj : j.IsReadable) : read constants (j.write style) = .ok j :=
  (read_written constants hstyle j).trans (reread_of_isReadable constants j hj)

end Json
end Vitrine
