import BasicOutline.Main
import BasicOutline.Service
import BasicOutline.Validation.Model
import BasicOutline.Proofs.ExactOutline
import BasicOutline.Proofs.ScanCompose
import BasicOutline.Proofs.LineFolding
import BasicOutline.Proofs.SplitSignature
import BasicOutline.Proofs.DeclarationDrop
import BasicOutline.Proofs.ParenthesisCollapse
import BasicOutline.Proofs.DeclarationSettled
import BasicOutline.Proofs.DisplayAgain
import BasicOutline.Proofs.ListedPlaces
import BasicOutline.Proofs.ScanHistory
import BasicOutline.Proofs.SignatureText
import BasicOutline.Proofs.RecordIndent
import BasicOutline.Proofs.CommentContents
import BasicOutline.Proofs.EntryCodec
import BasicOutline.Proofs.PrintedOutline
import BasicOutline.Proofs.FieldLookup
import BasicOutline.Proofs.CheckedSettings
import BasicOutline.Proofs.Utf8Reading
import BasicOutline.Proofs.JsonScalars
import BasicOutline.Proofs.JsonReading
import BasicOutline.Proofs.SettingsResolution
import BasicOutline.Proofs.SettingsAgreement
import BasicOutline.Proofs.ArgumentReading
import BasicOutline.Proofs.SettingsSwitches
import BasicOutline.Proofs.ServiceRequests
import BasicOutline.Proofs.AskedSettings
import BasicOutline.Proofs.PathCharacters
import BasicOutline.Proofs.EntryPoints
import BasicOutline.Proofs.LineEndings
import BasicOutline.Proofs.OutlineFailure
import BasicOutline.Proofs.PathNames
import BasicOutline.Proofs.DirectoryTree
import BasicOutline.Proofs.RepositoryWalk
import BasicOutline.Proofs.TreeShape
import BasicOutline.Proofs.RepositoryReport
import BasicOutline.Proofs.HiddenParts
import BasicOutline.Proofs.LineLayout
import BasicOutline.Proofs.BalancedGroups
import BasicOutline.Proofs.TypeClauses
import BasicOutline.Proofs.DeclarationFront
import BasicOutline.Proofs.ProcedureLine
import BasicOutline.Proofs.FieldLine
import BasicOutline.Proofs.OutermostGroups
import BasicOutline.Proofs.ParameterToggle
import BasicOutline.Proofs.SignatureAssembly
import BasicOutline.Proofs.RelativePaths
import BasicOutline.Proofs.ClosingParenthesis
import BasicOutline.Proofs.ContinuationMarker
import BasicOutline.Proofs.ReturnType
import BasicOutline.Proofs.MissingLines
