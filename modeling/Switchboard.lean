import Switchboard.Main
import Switchboard.Sample.Dispatcher
import Switchboard.Sample.Inputs
import Switchboard.Sample.Model
import Switchboard.Sample.Session
import Switchboard.Proofs.Accounting
import Switchboard.Proofs.Appending
import Switchboard.Proofs.Collisions
import Switchboard.Proofs.Delivery
import Switchboard.Proofs.PrintedText
import Switchboard.Proofs.NamePaths
import Switchboard.Proofs.ConverterText
import Switchboard.Proofs.LostClaims
import Switchboard.Proofs.Mounting
import Switchboard.Proofs.SampleSession
import Switchboard.Proofs.Session
import Switchboard.Proofs.Spelling
import Switchboard.Proofs.Writing
import Switchboard.Proofs.Complaints
import Switchboard.Proofs.JsonReading
import Switchboard.Proofs.Offers
import Switchboard.Proofs.JsonText
import Switchboard.Proofs.SampleRoundTrip
import Switchboard.Proofs.ModelText
import Switchboard.Proofs.TypeReading
import Switchboard.Proofs.ExpressionReading
import Switchboard.Proofs.BlockReading
import Switchboard.Proofs.ItemReading
import Switchboard.Proofs.ConverterSource
import Switchboard.Proofs.MapperSource
import Switchboard.Proofs.DispatcherSource
import Switchboard.Proofs.GeneratedSource
import Switchboard.Proofs.Streams
import Switchboard.Proofs.Batches
import Switchboard.Proofs.Exhaustion
import Switchboard.Proofs.Messages
import Switchboard.Proofs.Acceptance
import Switchboard.Proofs.NormalPaths
import Switchboard.Proofs.FieldNames
import Switchboard.Proofs.LatestDefinitions
import Switchboard.Proofs.WrittenNames
import Switchboard.Proofs.Recall
import Switchboard.Proofs.EventTrace
import Switchboard.Proofs.SampleFailures
import Switchboard.Proofs.Places
import Switchboard.Proofs.FinalSegment
import Switchboard.Proofs.Chains
import Switchboard.Proofs.FieldAccess
