import ThresholdAlerts.Main
import ThresholdAlerts.Proofs.LateRecovery
import ThresholdAlerts.Proofs.Streaks
import ThresholdAlerts.Proofs.Timeline
import ThresholdAlerts.Schedule.Machine
import ThresholdAlerts.Wire.Config
import ThresholdAlerts.Proofs.Acceptance
import ThresholdAlerts.Proofs.Dismissals
import ThresholdAlerts.Proofs.Reports
import ThresholdAlerts.Proofs.Insulation
import ThresholdAlerts.Proofs.Takeovers
import ThresholdAlerts.Proofs.Transparency
import ThresholdAlerts.Proofs.Hearings
import ThresholdAlerts.Proofs.Locks
import ThresholdAlerts.Proofs.Independence
import ThresholdAlerts.Proofs.Backlogs
import ThresholdAlerts.Proofs.Progress
import ThresholdAlerts.Proofs.Announcements
import ThresholdAlerts.Proofs.Emissions
import ThresholdAlerts.Proofs.Retention
import ThresholdAlerts.Proofs.Clearance
import ThresholdAlerts.Proofs.Resumption
import ThresholdAlerts.Proofs.Collapsing
import ThresholdAlerts.Proofs.Listings
import ThresholdAlerts.Proofs.Inputs
import ThresholdAlerts.Proofs.Delays
