import ThresholdAlerts.Engine.Report
import ThresholdAlerts.Wire.Alert
/-! The state of the engine as JSON. -/
namespace ThresholdAlerts

def Stats.toJson (s : Stats) : Json :=
  .record [
    ("samples", .nat s.samples),
    ("nan_samples", .nat s.nanSamples),
    ("rule_evaluations", .nat s.ruleEvaluations),
    ("invalid_rule_evaluations", .nat s.invalidRuleEvaluations),
    ("alerts_opened", .nat s.alertsOpened),
    ("alerts_resolved", .nat s.alertsResolved),
    ("sink_failures", .nat s.sinkFailures),
    ("retried_deliveries", .nat s.retriedDeliveries),
    ("collapsed_deliveries", .nat s.collapsedDeliveries),
    ("dead_lettered", .nat s.deadLettered)]

def StoreHealth.toJson (h : StoreHealth) : Json :=
  .record [
    ("degraded", .bool h.degraded),
    ("stale", .bool h.stale),
    ("consecutive_failures", .nat h.consecutiveFailures),
    ("last_error", .optional .text h.lastError),
    ("last_refreshed_at", .optional Timestamp.toJson h.lastRefreshedAt),
    ("generation", .nat h.generation),
    ("rule_count", .nat h.ruleCount)]

def EngineHealth.toJson (h : EngineHealth) : Json :=
  .record [
    ("store", h.store.toJson),
    ("tracked_rules", .nat h.summary.trackedRules),
    ("pending_rules", .nat h.summary.pending),
    ("open_alerts", .nat h.summary.openAlerts),
    ("pending_deliveries", .nat h.summary.pendingDeliveries),
    ("dead_letters", .nat h.deadLetters),
    ("stats", h.stats.toJson)]

end ThresholdAlerts
