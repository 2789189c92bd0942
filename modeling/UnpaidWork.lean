import UnpaidWork.Wire.Plan
import UnpaidWork.Service
import UnpaidWork.CaseBook
import UnpaidWork.Proofs.Overshoot
import UnpaidWork.Proofs.Filling
import UnpaidWork.Proofs.PassingDays
import UnpaidWork.Proofs.LockHistory
import UnpaidWork.Proofs.BookedDays
import UnpaidWork.Proofs.Exhaustion
import UnpaidWork.Proofs.Effects
import UnpaidWork.Proofs.Steps
import UnpaidWork.Proofs.Interleaving
import UnpaidWork.Proofs.Matching
import UnpaidWork.Proofs.Growth
import UnpaidWork.Proofs.InputOrder
import UnpaidWork.Proofs.RoundTrip
import UnpaidWork.Proofs.LeapSeconds
import UnpaidWork.Proofs.Legitimacy
import UnpaidWork.Proofs.Limits
import UnpaidWork.Proofs.VisitedDays
import UnpaidWork.Proofs.CleanLock
import UnpaidWork.Proofs.UnmetNeed
