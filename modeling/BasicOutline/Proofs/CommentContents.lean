import BasicOutline.Proofs.CommentMark
import BasicOutline.Proofs.ScanHistory
import BasicOutline.Proofs.SignatureAssembly

/-! What a scan reads of comments.

The role of a line and the parentheses of a signature are looked for in whole lines, comments
included. So a comment can list a declaration or keep a signature open, and there is no other way in
which it changes an outline. -/

namespace BasicOutline

namespace Signature

open Text

section Segments

variable {text : Text} {nesting : Int} {lines : List Text} {assembled : Assembled}

theorem extend_present_cases (extended : extend text nesting (lines.map some) = .ok assembled) :
    (assembled = ⟨text, 0⟩ ∧ (nesting ≤ 0 ∨ lines = [])) ∨
      ∃ line rest inner, 0 < nesting ∧ lines = line :: rest ∧
        extend (text ++ '\n' :: stripContinuation line)
          (nesting + Parenthesis.depth (stripContinuation line)) (rest.map some) = .ok inner ∧
        assembled = ⟨inner.text, inner.extra + 1⟩ := by
  by_cases closed : nesting ≤ 0
  · rw [extend_of_closed closed] at extended
    exact .inl ⟨(Except.ok.inj extended).symm, .inl closed⟩
  · have opened : 0 < nesting := by omega
    cases lines with
    | nil => exact .inl ⟨(Except.ok.inj extended).symm, .inr rfl⟩
    | cons line rest =>
      rw [List.map_cons, extend_some opened] at extended
      obtain ⟨inner, continued, same⟩ := Scan.map_eq_ok extended
      exact .inr ⟨line, rest, inner, opened, rfl, continued, same.symm⟩

theorem extend_extra_eq {others : List Text} (length_eq : lines.length = others.length)
    (extended : extend text nesting (lines.map some) = .ok assembled)
    (depths : ∀ (position : Nat) (line other : Text), position < assembled.extra →
      lines[position]? = some line → others[position]? = some other →
      Parenthesis.depth line = Parenthesis.depth other) (start : Text) :
    ∃ copy, extend start nesting (others.map some) = .ok copy ∧ copy.extra = assembled.extra := by
  induction lines generalizing text nesting assembled others start with
  | nil =>
    rw [List.length_nil] at length_eq
    rw [List.length_eq_zero_iff.mp length_eq.symm]
    have stopped := Except.ok.inj extended
    exact ⟨⟨start, 0⟩, rfl, by rw [← stopped]⟩
  | cons line rest ih =>
    cases others with
    | nil => cases length_eq
    | cons other more =>
      rcases extend_present_cases extended with
        ⟨stopped, closed | impossible⟩ | ⟨head, tail, inner, opened, same, continued, taken⟩
      · refine ⟨⟨start, 0⟩, extend_of_closed closed _, ?_⟩
        rw [stopped]
      · cases impossible
      · obtain ⟨rfl, rfl⟩ := List.cons.inj same
        rw [taken] at depths ⊢
        have here : Parenthesis.depth line = Parenthesis.depth other :=
          depths 0 line other (Nat.succ_pos _) rfl rfl
        have later : ∀ (position : Nat) (first second : Text), position < inner.extra →
            rest[position]? = some first → more[position]? = some second →
            Parenthesis.depth first = Parenthesis.depth second := by
          intro position first second inside found there
          exact depths (position + 1) first second (Nat.succ_lt_succ inside) found there
        rw [depth_stripContinuation, here, ← depth_stripContinuation other] at continued
        obtain ⟨copy, extendedCopy, extra_eq⟩ := ih (Nat.succ.inj length_eq) continued later
          (start ++ '\n' :: stripContinuation other)
        refine ⟨⟨copy.text, copy.extra + 1⟩, ?_, by rw [extra_eq]⟩
        rw [List.map_cons, extend_some opened, extendedCopy]
        rfl

end Segments

theorem stripContinuation_sublist (line : Text) : (stripContinuation line).Sublist line := by
  obtain ⟨front, mark, back, whole, stripped, -⟩ := stripContinuation_split line
  rw [stripped, whole, List.append_assoc]
  exact (List.Sublist.refl front).append (List.sublist_append_right mark back)

theorem dropComments_assembled {line : Text} {following : List Text} {signature : Assembled}
    (assembled : assemble (some line) (following.map some) = .ok signature)
    (single : ∀ part ∈ line :: following, '\n' ∉ part) :
    Display.dropComments signature.text = List.intercalate ['\n']
      ((line :: following.take signature.extra).map (Display.dropComment ∘ stripContinuation)) := by
  have text_eq : signature.text = List.intercalate ['\n']
      ((line :: following.take signature.extra).map stripContinuation) :=
    extend_text_eq assembled
  have plain : ∀ segment ∈ (line :: following.take signature.extra).map stripContinuation,
      '\n' ∉ segment := by
    intro segment member feed
    obtain ⟨part, inside, rfl⟩ := List.mem_map.mp member
    have known : part ∈ line :: following :=
      ((List.take_sublist _ following).cons_cons line).subset inside
    exact single part known ((stripContinuation_sublist part).subset feed)
  rw [Display.dropComments, text_eq, List.splitOn_intercalate '\n' plain (by simp), List.map_map]

/-- Signatures whose lines differ in their comments take up as many lines and are shown alike, if
the comments hold as many parentheses. -/
theorem assemble_comments {line other : Text} {following others : List Text}
    {signature : Assembled}
    (assembled : assemble (some line) (following.map some) = .ok signature)
    (code : (line :: following).map throughMark = (other :: others).map throughMark)
    (single : ∀ part ∈ line :: following, '\n' ∉ part)
    (otherSingle : ∀ part ∈ other :: others, '\n' ∉ part)
    (opened : openDepth line = openDepth other)
    (depths : ∀ (position : Nat) (first second : Text), position < signature.extra →
      following[position]? = some first → others[position]? = some second →
      Parenthesis.depth first = Parenthesis.depth second) :
    ∃ copy, assemble (some other) (others.map some) = .ok copy ∧ copy.extra = signature.extra ∧
      Display.dropComments copy.text = Display.dropComments signature.text := by
  have length_eq : following.length = others.length := by
    simpa using congrArg List.length code
  have nesting : openDepth (stripContinuation line) = openDepth (stripContinuation other) := by
    rw [openDepth_stripContinuation, openDepth_stripContinuation, opened]
  have extended := assembled
  rw [assemble_some, nesting] at extended
  obtain ⟨copy, extendedCopy, extra_eq⟩ := extend_extra_eq length_eq extended depths
    (stripContinuation other)
  refine ⟨copy, extendedCopy, extra_eq, ?_⟩
  have taken : (other :: others.take copy.extra).map throughMark =
      (line :: following.take signature.extra).map throughMark := by
    have whole := congrArg (List.take (signature.extra + 1)) code
    rw [extra_eq]
    simpa using whole.symm
  rw [dropComments_assembled assembled single, dropComments_assembled extendedCopy otherSingle]
  apply congrArg
  apply Scan.map_eq_of_map_eq taken
  intro first _ second _ same
  exact Display.dropComment_congr (throughMark_stripContinuation same)

end Signature

namespace Scan

open Text
open Signature (Line)

/-- What a scan reads of two lists of lines is the same: outside the signatures the role of a line,
unless it is a comment as a whole, and on the lines of a signature the parentheses. -/
structure ReadAlike (first second : List Text) (records : List Record) : Prop where
  role : ∀ (index : Nat) (line other : Text), first[index]? = some line →
    second[index]? = some other → ¬ Consumed (first.map some) records index →
    isComment line = false → classify line = classify other
  opened : ∀ (index : Nat) (line other : Text), first[index]? = some line →
    second[index]? = some other → OpensAt records index →
    Signature.openDepth line = Signature.openDepth other
  depth : ∀ (index : Nat) (line other : Text), first[index]? = some line →
    second[index]? = some other → Consumed (first.map some) records index →
    Parenthesis.depth line = Parenthesis.depth other

section Lockstep

variable {first second : List Text} {records : List Record} {index : Nat}

theorem getElem?_of_code (code : first.map throughMark = second.map throughMark) {line : Text}
    (here : first[index]? = some line) :
    ∃ other, second[index]? = some other ∧ throughMark line = throughMark other := by
  have same := congrArg (fun lines => lines[index]?) code
  simp only [List.getElem?_map, here, Option.map_some] at same
  obtain ⟨other, there, code_eq⟩ := Option.map_eq_some_iff.mp same.symm
  exact ⟨other, there, code_eq.symm⟩

theorem exists_next (code : first.map throughMark = second.map throughMark) {entry : Line}
    {following : List Line} (suffix : (first.map some).drop index = entry :: following) :
    ∃ line other, entry = some line ∧ first[index]? = some line ∧ second[index]? = some other ∧
      throughMark line = throughMark other ∧
      following = (first.drop (index + 1)).map some ∧
      (second.map some).drop index = some other :: (second.map some).drop (index + 1) := by
  obtain ⟨present, after⟩ := drop_eq_cons suffix
  rw [List.getElem?_map] at present
  obtain ⟨line, here, rfl⟩ := Option.map_eq_some_iff.mp present
  obtain ⟨other, there, code_eq⟩ := getElem?_of_code code here
  obtain ⟨inside, value⟩ := List.getElem?_eq_some_iff.mp there
  refine ⟨line, other, rfl, here, there, code_eq, ?_, ?_⟩
  · rw [← after, List.map_drop]
  · rw [← List.map_drop, ← List.map_drop, List.drop_eq_getElem_cons inside, List.map_cons, value]

theorem ReadAlike.classify_eq (alike : ReadAlike first second records) {line other : Text}
    (here : first[index]? = some line) (there : second[index]? = some other)
    (code : throughMark line = throughMark other)
    (free : ¬ Consumed (first.map some) records index) : classify line = classify other := by
  cases comment : isComment line with
  | false => exact alike.role index line other here there free comment
  | true =>
    have otherComment := comment
    rw [isComment_congr code] at otherComment
    rw [classify, classify, if_pos comment, if_pos otherComment]

theorem consumed_of_assembled {signature : Signature.Assembled} {entry : Line}
    {following : List Line} (suffix : (first.map some).drop index = entry :: following)
    (assembled : Signature.assemble entry following = .ok signature)
    (opens : OpensAt records index) {position : Nat} (inside : position < signature.extra) :
    Consumed (first.map some) records (index + 1 + position) := by
  rw [consumed_iff_opensAt]
  refine ⟨index, opens, _, Signature.grab_of_drop suffix assembled, by omega, ?_⟩
  simp only
  omega

theorem ReadAlike.exists_signature (alike : ReadAlike first second records)
    (code : first.map throughMark = second.map throughMark)
    (single : ∀ line ∈ first ++ second, '\n' ∉ line) {line other : Text}
    {signature : Signature.Assembled} (here : first[index]? = some line)
    (there : second[index]? = some other)
    (assembled : Signature.assemble (some line) ((first.drop (index + 1)).map some) = .ok signature)
    (opens : OpensAt records index)
    (role : classify line = .declaration .function)
    (otherRole : classify other = .declaration .function) :
    ∃ copy, Signature.assemble (some other) ((second.drop (index + 1)).map some) = .ok copy ∧
      copy.extra = signature.extra ∧
      ∀ settings, Display.render settings copy.text = Display.render settings signature.text := by
  obtain ⟨inside, value⟩ := List.getElem?_eq_some_iff.mp here
  obtain ⟨within, copied⟩ := List.getElem?_eq_some_iff.mp there
  have firstDrop : first.drop index = line :: first.drop (index + 1) := by
    rw [List.drop_eq_getElem_cons inside, value]
  have secondDrop : second.drop index = other :: second.drop (index + 1) := by
    rw [List.drop_eq_getElem_cons within, copied]
  have suffix : (first.map some).drop index = some line :: (first.drop (index + 1)).map some := by
    rw [← List.map_drop, firstDrop, List.map_cons]
  have codes : (line :: first.drop (index + 1)).map throughMark =
      (other :: second.drop (index + 1)).map throughMark := by
    rw [← firstDrop, ← secondDrop, List.map_drop, List.map_drop, code]
  have plain : ∀ part ∈ line :: first.drop (index + 1), '\n' ∉ part := by
    intro part member
    rw [← firstDrop] at member
    exact single part (List.mem_append_left _ (List.mem_of_mem_drop member))
  have otherPlain : ∀ part ∈ other :: second.drop (index + 1), '\n' ∉ part := by
    intro part member
    rw [← secondDrop] at member
    exact single part (List.mem_append_right _ (List.mem_of_mem_drop member))
  obtain ⟨copy, reassembled, extra_eq, same⟩ := Signature.assemble_comments assembled codes plain
    otherPlain (alike.opened index line other here there opens) (by
      intro position part copied bound found matching
      rw [List.getElem?_drop] at found matching
      exact alike.depth _ part copied found matching
        (consumed_of_assembled suffix assembled opens bound))
  refine ⟨copy, reassembled, extra_eq, fun settings => ?_⟩
  apply Display.render_congr
  · rw [Display.flatten, Display.flatten, same]
  · rw [indentOf_assembled role assembled, indentOf_assembled otherRole reassembled]
    have line_code : throughMark line = throughMark other := (List.cons.inj codes).1
    exact (Display.indentOf_congr (plain line List.mem_cons_self)
      (otherPlain other List.mem_cons_self) line_code).symm

theorem ReadAlike.exists_free (alike : ReadAlike first second records)
    (code : first.map throughMark = second.map throughMark)
    (single : ∀ line ∈ first ++ second, '\n' ∉ line) {entry : Line} {following : List Line}
    (suffix : (first.map some).drop index = entry :: following)
    (free : ¬ Consumed (first.map some) records index) :
    ∃ copy : Line, (second.map some).drop index = copy :: (second.map some).drop (index + 1) ∧
      classify (copy.getD []) = classify (entry.getD []) ∧
      ∀ settings, Display.render settings (copy.getD []) =
        Display.render settings (entry.getD []) := by
  obtain ⟨line, other, rfl, here, there, same, -, next⟩ := exists_next code suffix
  refine ⟨some other, next, (alike.classify_eq here there same free).symm, fun settings => ?_⟩
  have plain := single line (List.mem_append_left _ (List.mem_of_getElem? here))
  have otherPlain := single other (List.mem_append_right _ (List.mem_of_getElem? there))
  exact (Display.render_eq_of_code plain otherPlain same settings).symm

end Lockstep

/-- Two lists of lines that are read alike are run alike. The trace of the first under any settings
tells the roles of its lines, and the history which of them are free. -/
theorem Trace.run_comments {base : Settings} {first second : List Text} {index : Nat}
    {state : State} {lines : List Line} {found : Found} {listed : List Record}
    (trace : Trace base index state lines found) (suffix : (first.map some).drop index = lines)
    (history : History (first.map some) listed index state)
    (code : first.map throughMark = second.map throughMark)
    (single : ∀ line ∈ first ++ second, '\n' ∉ line)
    (alike : ReadAlike first second (listed ++ found.records)) (settings : Settings) :
    run settings index state lines = run settings index state ((second.map some).drop index) := by
  induction trace generalizing listed with
  | @done index state =>
    have length_eq : first.length = second.length := by simpa using congrArg List.length code
    have ended : (second.map some).drop index = [] := by
      rw [List.drop_eq_nil_iff, List.length_map] at suffix ⊢
      omega
    rw [ended]
  | used taken rest ih =>
    obtain ⟨line, other, rfl, -, -, -, -, next⟩ := exists_next code suffix
    obtain ⟨here, after⟩ := drop_eq_cons suffix
    rw [next, run_used taken, run_used taken]
    exact ih after (history.skip here (.inl taken)) alike
  | passed free role rest ih =>
    have kept := (history.reached_iff (Trace.passed free role rest)).not.mpr (by omega)
    obtain ⟨copy, next, role_eq, -⟩ := alike.exists_free code single suffix kept
    obtain ⟨here, after⟩ := drop_eq_cons suffix
    rw [next, run_passed free role, run_passed free (role_eq ▸ role)]
    refine ih after (history.skip here (.inr ?_)) alike
    rcases role with role | role <;> simp [role]
  | ended free role rest ih =>
    have kept := (history.reached_iff (Trace.ended free role rest)).not.mpr (by omega)
    obtain ⟨copy, next, role_eq, -⟩ := alike.exists_free code single suffix kept
    obtain ⟨here, after⟩ := drop_eq_cons suffix
    rw [next, run_ended free role, run_ended free (role_eq.trans role)]
    exact ih after (history.ended here free role) alike
  | @cls index state entry following found free role rest ih =>
    have kept := (history.reached_iff (Trace.cls free role rest)).not.mpr (by omega)
    obtain ⟨copy, next, role_eq, shown⟩ := alike.exists_free code single suffix kept
    obtain ⟨here, after⟩ := drop_eq_cons suffix
    have step := history.push here ⟨Display.render base (entry.getD []), index + 1, .cls⟩ role rfl
      nofun
    rw [Found.push_records, List.append_cons] at alike
    rw [next, run_cls free role, run_cls free (role_eq.trans role), ih after step alike, shown]
  | @field index state entry following found indent free role indented rest ih =>
    have kept := (history.reached_iff (Trace.field free role indented rest)).not.mpr (by omega)
    obtain ⟨copy, next, role_eq, shown⟩ := alike.exists_free code single suffix kept
    obtain ⟨here, after⟩ := drop_eq_cons suffix
    have step := history.push here
      ⟨indent ++ Display.render base (entry.getD []), index + 1, .field⟩ role rfl nofun
    rw [Found.push_records, List.append_cons] at alike
    rw [next, run_field free role, run_field free (role_eq.trans role), ih after step alike, shown]
  | @procedure index state entry following found signature free role assembled rest ih =>
    have kept := (history.reached_iff (Trace.procedure free role assembled rest)).not.mpr (by omega)
    have grabbed := Signature.grab_of_drop suffix assembled
    have step := history.procedure free
      ⟨Display.render base signature.text, index + 1, .function⟩ rfl rfl grabbed rfl
    have after := (drop_eq_cons suffix).2
    obtain ⟨line, other, rfl, here, there, same, rfl, next⟩ := exists_next code suffix
    have role_eq := alike.classify_eq here there same kept
    have opens : OpensAt (listed ++ (found.push ⟨Display.render base signature.text, index + 1,
        .function⟩).records) index :=
      opensAt_append.mpr (.inr ⟨_, List.mem_cons_self, rfl, rfl⟩)
    obtain ⟨copy, reassembled, extra_eq, shown⟩ := alike.exists_signature code single here there
      assembled opens role (role_eq ▸ role)
    rw [Found.push_records, List.append_cons] at alike
    have otherRole : classify ((some other : Line).getD []) = .declaration .function :=
      role_eq.symm.trans role
    rw [List.map_drop] at reassembled
    rw [next, run_procedure free role assembled, run_procedure free otherRole reassembled, extra_eq,
      ih after step alike, shown]

/-- Without a standard indent no file whose lines are all present fails. -/
theorem exists_run (settings : Settings) (plain : settings.useStandardIndent = false)
    (lines : List Text) (index : Nat) (state : State) :
    ∃ found, run settings index state (lines.map some) = .ok found := by
  induction lines generalizing index state with
  | nil => exact ⟨_, rfl⟩
  | cons line rest ih =>
    rw [List.map_cons]
    by_cases taken : (index : Int) ≤ state.cursor
    · rw [run_used taken]
      exact ih (index + 1) state
    · have free : state.cursor < index := by omega
      cases role : classify ((some line : Line).getD []) with
      | comment =>
        rw [run_passed free (.inl role)]
        exact ih (index + 1) state
      | other =>
        rw [run_passed free (.inr role)]
        exact ih (index + 1) state
      | procedureEnd =>
        rw [run_ended free role]
        exact ih (index + 1) ⟨state.cursor, false⟩
      | declaration kind =>
        cases kind with
        | cls =>
          obtain ⟨found, ran⟩ := ih (index + 1) state
          rw [run_cls free role, ran]
          exact ⟨_, rfl⟩
        | function =>
          obtain ⟨signature, assembled⟩ : ∃ signature,
              Signature.assemble (some line) (rest.map some) = .ok signature :=
            Signature.exists_extend _ _ rest
          obtain ⟨found, ran⟩ := ih (index + 1) ⟨index + signature.extra, true⟩
          rw [run_procedure free role assembled, ran]
          exact ⟨_, rfl⟩
        | field =>
          obtain ⟨found, ran⟩ := ih (index + 1) state
          rw [run_field free role, fieldIndent, if_neg (by simp [plain]), ran]
          exact ⟨_, rfl⟩

theorem readAlike_of_quiet {first second : List Text} (records : List Record)
    (code : first.map throughMark = second.map throughMark)
    (quiet : ∀ line ∈ first ++ second, Quiet (commentOf line)) :
    ReadAlike first second records := by
  have facts : ∀ (index : Nat) (line other : Text), first[index]? = some line →
      second[index]? = some other → throughMark line = throughMark other ∧
        Quiet (commentOf line) ∧ Quiet (commentOf other) := by
    intro index line other here there
    obtain ⟨copy, found, same⟩ := getElem?_of_code code here
    obtain rfl := Option.some.inj (found.symm.trans there)
    exact ⟨same, quiet line (List.mem_append_left _ (List.mem_of_getElem? here)),
      quiet copy (List.mem_append_right _ (List.mem_of_getElem? there))⟩
  refine ⟨?_, ?_, ?_⟩
  · intro index line other here there _ _
    obtain ⟨same, firstQuiet, secondQuiet⟩ := facts index line other here there
    exact classify_eq_of_quiet same firstQuiet secondQuiet
  · intro index line other here there _
    obtain ⟨same, firstQuiet, secondQuiet⟩ := facts index line other here there
    rw [firstQuiet.openDepth_code, secondQuiet.openDepth_code, codeOf_congr same]
  · intro index line other here there _
    obtain ⟨same, firstQuiet, secondQuiet⟩ := facts index line other here there
    rw [firstQuiet.depth_code, secondQuiet.depth_code, codeOf_congr same]

/-- Comments change an outline through the role of a line that no signature reaches and through the
parentheses on the lines of a signature, and in no other way. So comments without parentheses and
without the phrases that make a role can be replaced by each other. -/
theorem scan_comments {first second : List Text}
    (single : ∀ line ∈ first ++ second, '\n' ∉ line)
    (code : first.map throughMark = second.map throughMark) :
    (∃ records, scan {} (first.map some) = .ok records ∧ (ReadAlike first second records →
      ∀ settings, scan settings (first.map some) = scan settings (second.map some))) ∧
    ((∀ line ∈ first ++ second, Quiet (commentOf line)) →
      ∀ settings, scan settings (first.map some) = scan settings (second.map some)) := by
  obtain ⟨found, ran⟩ := exists_run {} rfl first 0 {}
  have trace := Trace.of_run ran
  have alike_scan : ReadAlike first second found.records →
      ∀ settings, scan settings (first.map some) = scan settings (second.map some) := by
    intro alike settings
    have same := trace.run_comments rfl (History.start _) code single alike settings
    rw [scan_eq_map, scan_eq_map, same]
    rfl
  constructor
  · refine ⟨found.records, ?_, alike_scan⟩
    rw [scan_eq_map, ran]
    rfl
  · intro quiet
    exact alike_scan (readAlike_of_quiet found.records code quiet)

/-- The comments on the first line leave as many parentheses open, the signature reaches the phrases
on the second, the third line is a comment as a whole, and no signature is on the last. -/
theorem scan_comments_around_signature :
    let first := ["Sub F(a, ' (of T)", "b) ' Dim x", "  ' Sub G(", "Dim z ' one"].map String.toList
    let second := ["Sub F(a, ' ", "b) ' end sub", "  ' Class ", "Dim z ' ("].map String.toList
    scan {} (first.map some) =
        .ok [⟨"Sub F()".toList, 1, .function⟩, ⟨"Dim z".toList, 4, .field⟩] ∧
      ∀ settings, scan settings (first.map some) = scan settings (second.map some) := by
  intro first second
  have known : scan {} (first.map some) =
      .ok [⟨"Sub F()".toList, 1, .function⟩, ⟨"Dim z".toList, 4, .field⟩] := by decide +kernel
  have grabbed : Signature.grab (first.map some) (0 : Nat) =
      .ok ⟨"Sub F(a, ' (of T)\nb) ' Dim x".toList, 1⟩ := by decide +kernel
  have single : ∀ line ∈ first ++ second, '\n' ∉ line := by decide +kernel
  have code : first.map throughMark = second.map throughMark := by decide +kernel
  obtain ⟨records, scanned, same⟩ := (scan_comments single code).1
  rw [known] at scanned
  obtain rfl := Except.ok.inj scanned
  have opening : ∀ start : Nat,
      OpensAt [⟨"Sub F()".toList, 1, .function⟩, ⟨"Dim z".toList, 4, .field⟩] start ↔
        start = 0 := by
    intro start
    simp only [OpensAt, List.mem_cons, List.not_mem_nil, or_false, exists_eq_or_imp, exists_eq_left]
    simp only [true_and, reduceCtorEq, false_and, or_false]
    omega
  have reached : ∀ position : Nat, Consumed (first.map some)
      [⟨"Sub F()".toList, 1, .function⟩, ⟨"Dim z".toList, 4, .field⟩] position ↔ position = 1 := by
    intro position
    rw [consumed_iff_opensAt]
    simp only [opening, exists_eq_left, Reaches, grabbed, Except.ok.injEq, exists_eq_left']
    omega
  refine ⟨known, same ?_⟩
  constructor
  · intro index line other here there free comment
    rw [reached] at free
    rcases index with _ | _ | _ | _ | index
    · obtain rfl : "Sub F(a, ' (of T)".toList = line := Option.some.inj here
      obtain rfl : "Sub F(a, ' ".toList = other := Option.some.inj there
      decide +kernel
    · exact absurd rfl free
    · obtain rfl : "  ' Sub G(".toList = line := Option.some.inj here
      exact absurd comment (by decide +kernel)
    · obtain rfl : "Dim z ' one".toList = line := Option.some.inj here
      obtain rfl : "Dim z ' (".toList = other := Option.some.inj there
      decide +kernel
    · simp [first] at here
  · intro index line other here there opens
    obtain rfl := (opening index).mp opens
    obtain rfl : "Sub F(a, ' (of T)".toList = line := Option.some.inj here
    obtain rfl : "Sub F(a, ' ".toList = other := Option.some.inj there
    decide +kernel
  · intro index line other here there consumed
    obtain rfl := (reached index).mp consumed
    obtain rfl : "b) ' Dim x".toList = line := Option.some.inj here
    obtain rfl : "b) ' end sub".toList = other := Option.some.inj there
    decide +kernel

/-- A phrase in a comment lists the line of it. -/
theorem not_scan_comments_ignored :
    ¬ ∀ (settings : Settings) (first second : List Text),
      (∀ line ∈ first ++ second, '\n' ∉ line ∧ '"' ∉ line) →
      first.map throughMark = second.map throughMark →
      scan settings (first.map some) = scan settings (second.map some) := by
  intro ignored
  have same := ignored {} ["x = 1 ' class y".toList] ["x = 1 ' y".toList] (by decide +kernel)
    (by decide +kernel)
  have listed : scan {} [some "x = 1 ' class y".toList] = .ok [⟨"x = 1".toList, 1, .cls⟩] := by
    decide +kernel
  have empty : scan {} [some "x = 1 ' y".toList] = .ok [] := by decide +kernel
  rw [List.map_singleton, List.map_singleton, listed, empty] at same
  cases same

end Scan

end BasicOutline
