import BasicOutline.Settings
import BasicOutline.Validation.Scalar

/-! Settings from the fields of an object. -/

namespace BasicOutline

namespace Setting

open Validation

/-- The key and the value that an object gives a setting; the key of editors comes first. -/
def given? (setting : Setting) (fields : Json.Fields) : Option (Text × Json) :=
  match fields.get? setting.editorKey with
  | some value => some (setting.editorKey, value)
  | none => (fields.get? setting.plainKey).map (setting.plainKey, ·)

def check {α : Type} (setting : Setting) (fields : Json.Fields) (default : α)
    (check : Json → Check α) : Check α :=
  match setting.given? fields with
  | some (key, value) => (check value).under (.field key)
  | none => .ok default

end Setting

namespace Settings

open Validation

def ofFields (fields : Json.Fields) : Check Settings :=
  let defaults : Settings := {}
  let flag (setting : Setting) (default : Bool) : Check Bool := setting.check fields default bool
  let level := Setting.standardIndentLevel.check fields defaults.standardIndentLevel nat
  Check.ap
    (Check.ap
      (Check.ap
        (Check.ap
          ((flag .useStandardIndent defaults.useStandardIndent).map Settings.mk)
          level)
        (flag .showParameters defaults.showParameters))
      (flag .showFunctionType defaults.showFunctionType))
    (flag .showVarType defaults.showVarType)

def modelName : Text := "OutlineSettings".toList

def check (value : Json) : Check Settings := Check.object (.notModel modelName) ofFields value

end Settings

end BasicOutline
