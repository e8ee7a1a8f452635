import BasicOutline.Proofs.RecordIndent

/-! Hiding a part of a declaration only takes characters away.

Whatever the settings hide, the line that is shown can be read off the line that shows everything,
with some of its characters left out. The indentation is the same for all settings. -/

namespace BasicOutline

namespace Text

/-- The first character that is kept stands in both texts behind all that is dropped. -/
theorem dropWhile_sublist_dropWhile {drop : Char → Bool} {short long : Text}
    (sublist : short.Sublist long) : (short.dropWhile drop).Sublist (long.dropWhile drop) := by
  induction sublist with
  | slnil => exact List.Sublist.refl []
  | @cons short long c sublist ih =>
    cases dropped : drop c with
    | true => rwa [List.dropWhile_cons_of_pos dropped]
    | false =>
      rw [List.dropWhile_cons_of_neg (by simp [dropped])]
      exact ((List.dropWhile_sublist drop).trans sublist).cons c
  | @cons_cons short long c sublist ih =>
    cases dropped : drop c with
    | true => rwa [List.dropWhile_cons_of_pos dropped, List.dropWhile_cons_of_pos dropped]
    | false =>
      rw [List.dropWhile_cons_of_neg (by simp [dropped]),
        List.dropWhile_cons_of_neg (by simp [dropped])]
      exact sublist.cons_cons c

end Text

namespace Display

open Text

structure ShowsAll (settings : Settings) : Prop where
  parameters : settings.showParameters = true
  functionType : settings.showFunctionType = true
  varType : settings.showVarType = true

theorem ShowsAll.hidden_eq {settings : Settings} (all : ShowsAll settings) (t : Text) :
    hidden settings t = t := by
  rw [hidden, listed, if_pos all.parameters, returned, if_pos all.functionType, typed,
    if_pos all.varType]

theorem reindent_sublist {short long : Text} (sublist : short.Sublist long) (n : Nat) :
    (reindent n short).Sublist (reindent n long) := by
  unfold reindent
  exact (List.Sublist.refl (spaces n)).append (dropWhile_sublist_dropWhile sublist)

/-- What is shown is a part of the line that shows everything, with the same indentation. -/
theorem render_sublist_of_showsAll (settings full : Settings) (all : ShowsAll full) (t : Text) :
    (render settings t).Sublist (render full t) ∧
      IndentedBy (indentOf t) (render settings t) ∧ IndentedBy (indentOf t) (render full t) ∧
      indentOf (render settings t) = indentOf t := by
  refine ⟨?_, indentedBy_render settings t, indentedBy_render full t, indentOf_render settings t⟩
  rw [render_eq, render_eq, all.hidden_eq]
  exact reindent_sublist (hidden_sublist settings (flatten t)) (indentOf t)

/-- A first line of blanks, an attribute whose block ends inside its own group, two declarations and
a group that is never closed. -/
theorem render_sublist_of_malformed :
    ShowsAll ⟨false, 2, true, true, true⟩ ∧
      (render {} " \t \r\n<A(>)> Dim x(1) As Long: Const y((2 As Date".toList).Sublist
        (render ⟨false, 2, true, true, true⟩
          " \t \r\n<A(>)> Dim x(1) As Long: Const y((2 As Date".toList) ∧
      render {} " \t \r\n<A(>)> Dim x(1) As Long: Const y((2 As Date".toList =
        "   <A()> Dim x()".toList := by
  have all : ShowsAll ⟨false, 2, true, true, true⟩ := ⟨rfl, rfl, rfl⟩
  exact ⟨all, (render_sublist_of_showsAll {} _ all _).1, by decide +kernel⟩

end Display

end BasicOutline
