import BasicOutline.Report
import BasicOutline.Validation.Scalar

/-! Checks of records, scan states and file outlines. -/

namespace BasicOutline.Validation

def recordModel : Text := "OutlineRecord".toList

def stateModel : Text := "ScanState".toList

def fileModel : Text := "FileOutline".toList

def recordOfFields (fields : Json.Fields) : Check Record :=
  Check.ap
    (Check.ap ((Check.required fields "display_text".toList text).map Record.mk)
      (Check.required fields "source_line".toList int))
    (Check.required fields "kind".toList kind)

def record (value : Json) : Check Record :=
  Check.object (.notModel recordModel) recordOfFields value

def stateOfFields (fields : Json.Fields) : Check Scan.State :=
  Check.ap ((Check.optional fields "skip_cursor".toList (-1) int).map Scan.State.mk)
    (Check.optional fields "in_procedure".toList false bool)

def state (value : Json) : Check Scan.State :=
  Check.object (.notModel stateModel) stateOfFields value

def fileOfFields (fields : Json.Fields) : Check Report.FileOutline :=
  Check.ap
    (Check.ap
      (Check.ap
        (Check.ap
          (Check.ap ((Check.required fields "path".toList text).map Report.FileOutline.mk)
            (Check.required fields "rel_path".toList text))
          (Check.required fields "language".toList text))
        (Check.optional fields "records".toList [] (list record)))
      (Check.optional fields "error".toList none optionalText))
    (Check.optional fields "summary".toList [] text)

def file (value : Json) : Check Report.FileOutline :=
  Check.object (.notModel fileModel) fileOfFields value

end BasicOutline.Validation
