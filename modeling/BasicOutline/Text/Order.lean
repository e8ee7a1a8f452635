import BasicOutline.Text.Blank

/-! The order of texts: code point by code point, a text before those that it begins. -/

namespace BasicOutline.Text

def le : Text → Text → Bool
  | [], _ => true
  | _ :: _, [] => false
  | a :: as, b :: bs =>
    if a.toNat < b.toNat then true else if b.toNat < a.toNat then false else le as bs

theorem le_total (first second : Text) : (le first second || le second first) = true := by
  induction first generalizing second with
  | nil => rfl
  | cons a as ih =>
    cases second with
    | nil => rfl
    | cons b bs =>
      have rest := ih bs
      grind [le]

theorem le_trans {first second third : Text} (lower : le first second = true)
    (upper : le second third = true) : le first third = true := by
  induction first generalizing second third with
  | nil => rfl
  | cons a as ih =>
    cases second with
    | nil => cases lower
    | cons b bs =>
      cases third with
      | nil => cases upper
      | cons c cs =>
        have rest := @ih bs cs
        grind [le]

theorem le_antisymm {first second : Text} (lower : le first second = true)
    (upper : le second first = true) : first = second := by
  induction first generalizing second with
  | nil =>
    cases second with
    | nil => rfl
    | cons b bs => cases upper
  | cons a as ih =>
    cases second with
    | nil => cases lower
    | cons b bs =>
      have rest := @ih bs
      have same : a.toNat = b.toNat → a = b := Char.toNat_inj.mp
      grind [le]

end BasicOutline.Text
