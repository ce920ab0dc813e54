import TagFormula.Main
import TagFormula.Session.Drawing
import TagFormula.Session.Event
import TagFormula.Proofs.CalculatorRun
import TagFormula.Proofs.ClickTargets
import TagFormula.Proofs.ComposedFormula
import TagFormula.Proofs.EditorRun
import TagFormula.Proofs.FormulaText
import TagFormula.Proofs.LoadedSettings
import TagFormula.Proofs.Narrowing
import TagFormula.Proofs.SessionRun
import TagFormula.Proofs.SettingsRoundTrip
import TagFormula.Proofs.SuggestionOrder
import TagFormula.Proofs.EntryNames
import TagFormula.Proofs.KeyStrategy
import TagFormula.Proofs.Refusals
import TagFormula.Proofs.WordArithmetic
import TagFormula.Proofs.EvaluationOrder
import TagFormula.Proofs.EvaluationDepth
import TagFormula.Proofs.UnpairedParentheses
import TagFormula.Proofs.LexicalGrammar
import TagFormula.Proofs.JoinedTexts
import TagFormula.Proofs.PlainTokens
import TagFormula.Proofs.CatalogEntries
import TagFormula.Proofs.LabelPieces
import TagFormula.Proofs.TextField
import TagFormula.Proofs.ChosenSuggestion
import TagFormula.Proofs.LabelColumns
import TagFormula.Proofs.LastColumn
import TagFormula.Proofs.CellwiseDrawing
import TagFormula.Proofs.RequiredRows
import TagFormula.Proofs.SuggestionRows
import TagFormula.Proofs.PrintableText
import TagFormula.Proofs.NumberText
import TagFormula.Proofs.NoticeText
import TagFormula.Proofs.NoticeRows
import TagFormula.Proofs.CalculatedWords
import TagFormula.Proofs.ReadingBounds
