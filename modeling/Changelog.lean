import Changelog.Main
import Changelog.Proofs.Decoration.Rendering
import Changelog.Proofs.Publish.Contract
import Changelog.Proofs.Anchors.Agreement
import Changelog.Proofs.Anchors.Places
import Changelog.Proofs.Anchors.ReadBack
import Changelog.Proofs.Anchors.Segments
import Changelog.Proofs.Decoration.Contraction
import Changelog.Proofs.Decoration.Order
import Changelog.Proofs.Publish.Sharing
import Changelog.Proofs.History.Answers
import Changelog.Proofs.Publish.Script
import Changelog.Proofs.Anchors.Signs
import Changelog.Proofs.Anchors.Markup
import Changelog.Proofs.Anchors.Unreadable
import Changelog.Proofs.Decoration.Failure
import Changelog.Proofs.Publish.Causes
import Changelog.Proofs.Publish.Repetition
import Changelog.Proofs.Publish.LineBreaks
import Changelog.Proofs.Decoration.Boxing
import Changelog.Proofs.Document.NumberReferences
import Changelog.Proofs.Document.SpanSteps
import Changelog.Proofs.Document.BlockSteps
import Changelog.Proofs.Document.ScanSteps
import Changelog.Proofs.History.Numbers
