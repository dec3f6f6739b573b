import DocEntities.Command.Run
import DocEntities.Comment.Markers
import DocEntities.Comment.Reading
import DocEntities.Config
import DocEntities.Event
import DocEntities.Extraction
import DocEntities.LineForm
import DocEntities.Main
import DocEntities.Proofs.Accounting
import DocEntities.Proofs.Assignment
import DocEntities.Proofs.BatchFailure
import DocEntities.Proofs.ClosedForm
import DocEntities.Proofs.CommentFormat
import DocEntities.Proofs.CommentOrder
import DocEntities.Proofs.Composition
import DocEntities.Proofs.ConfigSearch
import DocEntities.Proofs.Containers
import DocEntities.Proofs.FieldTags
import DocEntities.Proofs.FileOrder
import DocEntities.Proofs.FunctionScope
import DocEntities.Proofs.History
import DocEntities.Proofs.InstanceMethods
import DocEntities.Proofs.Json.RoundTrip
import DocEntities.Proofs.LineEnds
import DocEntities.Proofs.Monotone
import DocEntities.Proofs.MovingDown
import DocEntities.Proofs.NamepathLaws
import DocEntities.Proofs.NewConfig
import DocEntities.Proofs.Parameter
import DocEntities.Proofs.Precedence
import DocEntities.Proofs.Scanning
import DocEntities.Proofs.StoredKey
import DocEntities.Proofs.TagPlace
import DocEntities.Proofs.Visit
import DocEntities.Proofs.WorkingDirectory
import DocEntities.Scope
