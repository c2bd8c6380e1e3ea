import AesTrials.Main
import AesTrials.Proofs.Columns
import AesTrials.Proofs.Cutting
import AesTrials.Proofs.ForeignLength
import AesTrials.Proofs.Forgery
import AesTrials.Proofs.Isolation
import AesTrials.Proofs.Overheads
import AesTrials.Proofs.Rationing
import AesTrials.Proofs.Rendering
import AesTrials.Proofs.Repadding
import AesTrials.Proofs.Repetitions
import AesTrials.Proofs.RoundTrip
import AesTrials.Proofs.Secrecy
import AesTrials.Proofs.Selecting
import AesTrials.Proofs.TextLayer
import AesTrials.Proofs.Unsigned
import AesTrials.SecretKey
import AesTrials.Trial.FaultPlan
