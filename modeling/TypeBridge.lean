import TypeBridge.Schema.DecimalNumber
import TypeBridge.Migration.ApprovalRun
import TypeBridge.Schema.Inherited
import TypeBridge.Migration.Widening
import TypeBridge.Execution.ActiveHistory
import TypeBridge.Execution.RollbackBackfill
import TypeBridge.Schema.Plannable
import TypeBridge.Migration.ConstraintChange
import TypeBridge.Contract.ScalarWire
import TypeBridge.Schema.Calendar
import TypeBridge.Orm.MatchTopology
import TypeBridge.Orm.SchemaDiff
import TypeBridge.Staging.Visibility
import TypeBridge.Schema.SourcePattern
import TypeBridge.Migration.GroupTiling
import TypeBridge.Schema.PlanOrder
import TypeBridge.Server.ReplayStore
