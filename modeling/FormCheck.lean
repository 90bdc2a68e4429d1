import FormCheck.Check.Inspection
import FormCheck.Main
import FormCheck.Proofs.PlanResolution
import FormCheck.Proofs.RuleTextRoundTrip
import FormCheck.Proofs.RunSettlement
import FormCheck.Rule.Clause.Json
import FormCheck.Session
import FormCheck.Validator.Origin.Json
import FormCheck.Validator.Recipe
import FormCheck.Proofs.ValidationOutcome
import FormCheck.Proofs.FailedRules
import FormCheck.Proofs.SessionLineage
import FormCheck.Proofs.WritableRules
import FormCheck.Proofs.TurnsInLine
import FormCheck.Proofs.UnresolvedRules
import FormCheck.Proofs.Joins
import FormCheck.Proofs.StartedChecks
import FormCheck.Proofs.Relevance
import FormCheck.Proofs.ExecutionIndependence
import FormCheck.Proofs.FieldByField
import FormCheck.Proofs.JsonSpelling
import FormCheck.Proofs.DocumentRoundTrip
import FormCheck.Proofs.CommandLineOutcome
import FormCheck.Proofs.SubmissionOrder
import FormCheck.Proofs.NearestRank
import FormCheck.Proofs.RegistrationEffect
import FormCheck.Proofs.ShortestDigits
import FormCheck.Proofs.NumberLayout
import FormCheck.Proofs.NumberSpelling
import FormCheck.Proofs.SteppedEvaluation
import FormCheck.Proofs.RereadNumbers
import FormCheck.Proofs.SubmissionRoundTrip
import FormCheck.Proofs.JoinedRules
import FormCheck.Proofs.MalformedRules
import FormCheck.Proofs.TextRuns
import FormCheck.Proofs.DecimalLiterals
import FormCheck.Proofs.NumberArguments
import FormCheck.Proofs.NumberReadBack
import FormCheck.Proofs.CalendarDays
import FormCheck.Proofs.DateTexts
import FormCheck.Proofs.MailTexts
import FormCheck.Proofs.DateInstants
import FormCheck.Proofs.DateForms
import FormCheck.Proofs.LengthBounds
import FormCheck.Proofs.DecimalBounds
import FormCheck.Proofs.FewestDigits
import FormCheck.Proofs.ScriptTexts
import FormCheck.Proofs.DateNumbers
import FormCheck.Proofs.DateComparison
import FormCheck.Proofs.RelatedRules
import FormCheck.Proofs.OffsetEnds
import FormCheck.Proofs.DayAtMidnight
import FormCheck.Proofs.UniversalTexts
import FormCheck.Proofs.RegistryHistories
import FormCheck.Proofs.IntegerWords
import FormCheck.Proofs.ClauseSegments
