import FieldTelemetry.Collector.Patrol
import FieldTelemetry.Collector.Rehearsal
import FieldTelemetry.Main
import FieldTelemetry.Pipeline.Consumer
import FieldTelemetry.Proofs.Collector.InstanceId
import FieldTelemetry.Proofs.Collector.Supervised
import FieldTelemetry.Proofs.Collector.Validation
import FieldTelemetry.Proofs.Delivery.Alerts
import FieldTelemetry.Proofs.Files.Confinement
import FieldTelemetry.Proofs.Intake.Datagram
import FieldTelemetry.Proofs.Intake.Queue
import FieldTelemetry.Proofs.Intake.Recency
import FieldTelemetry.Proofs.Intake.Refusal
import FieldTelemetry.Proofs.Pipeline.Consumer
import FieldTelemetry.Proofs.Pipeline.Copies
import FieldTelemetry.Proofs.Pipeline.Counts
import FieldTelemetry.Proofs.Pipeline.Degraded
import FieldTelemetry.Proofs.Pipeline.DroppedTraffic
import FieldTelemetry.Proofs.Pipeline.Flush
import FieldTelemetry.Proofs.Pipeline.Presence
import FieldTelemetry.Proofs.Pipeline.Shutdown
import FieldTelemetry.Proofs.Ring
import FieldTelemetry.Proofs.Stamp.Fleet
import FieldTelemetry.Proofs.Stamp.Frame
import FieldTelemetry.Proofs.Store.Attempts
import FieldTelemetry.Proofs.Store.Batches
import FieldTelemetry.Proofs.Store.Codec
import FieldTelemetry.Proofs.Store.Forgetting
import FieldTelemetry.Proofs.Store.Interchange
import FieldTelemetry.Proofs.Store.Mirror
import FieldTelemetry.Proofs.Store.Overlap
import FieldTelemetry.Proofs.Store.Redelivery
import FieldTelemetry.Proofs.Store.Served
import FieldTelemetry.Proofs.Store.Shared
import FieldTelemetry.Proofs.Upload.Forms
import FieldTelemetry.Proofs.Upload.Handlers
import FieldTelemetry.Proofs.Watch.Returns
import FieldTelemetry.Proofs.Wire.Bulk
import FieldTelemetry.Proofs.Wire.DateTime
import FieldTelemetry.Upload.Endpoint
