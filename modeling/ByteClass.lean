import ByteClass.BoundedSinkPrefix
import ByteClass.ByteScan
import ByteClass.CaseInsensitiveOrder
import ByteClass.FlagRegister
import ByteClass.ListingSession
import ByteClass.Main
import ByteClass.Proofs.StrippedTerms
import ByteClass.Proofs.ExpressionLanguage
import ByteClass.Proofs.CaseInsensitivePreorder
import ByteClass.Proofs.ListingRuns
import ByteClass.Proofs.WrittenSets
import ByteClass.Proofs.RegisterPositions
import ByteClass.Proofs.DecoratedText
import ByteClass.Proofs.EncodedTextCase
import ByteClass.Proofs.SortedRepresentatives
import ByteClass.Proofs.CommandOutcomes
import ByteClass.Proofs.SelectedBytes
import ByteClass.Proofs.ErrorReports
import ByteClass.Proofs.KnownPositions
import ByteClass.Proofs.JsonTokens
import ByteClass.Proofs.JsonReading
import ByteClass.Proofs.ExportedTables
import ByteClass.Proofs.LexicographicReference
import ByteClass.Proofs.JoinedExpressions
import ByteClass.Proofs.SourceText
import ByteClass.Proofs.ListedTables
import ByteClass.Proofs.StreamedExport
import ByteClass.Proofs.EncodedTextClasses
import ByteClass.Proofs.CaseVariants
import ByteClass.Proofs.SummarizedBytes
import ByteClass.Proofs.NameLookup
import ByteClass.Proofs.LabelCode
