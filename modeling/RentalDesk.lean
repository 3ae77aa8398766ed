import RentalDesk.Main
import RentalDesk.Proofs.Accrual
import RentalDesk.Proofs.AllOrNothing
import RentalDesk.Proofs.Archive.Survival
import RentalDesk.Proofs.Availability
import RentalDesk.Proofs.Catalog.Isolation
import RentalDesk.Proofs.Charges
import RentalDesk.Proofs.CurrencyScale
import RentalDesk.Proofs.Deadlock
import RentalDesk.Proofs.Display
import RentalDesk.Proofs.Finality
import RentalDesk.Proofs.Grammar
import RentalDesk.Proofs.Growth
import RentalDesk.Proofs.Interchange.History
import RentalDesk.Proofs.Ledger
import RentalDesk.Proofs.Locking
import RentalDesk.Proofs.Overflow
import RentalDesk.Proofs.Plain.Refinement
import RentalDesk.Proofs.Possession
import RentalDesk.Proofs.Privacy
import RentalDesk.Proofs.Restarts
import RentalDesk.Proofs.Rights.Undisputed
import RentalDesk.Proofs.Seeding
import RentalDesk.Proofs.Serializability
import RentalDesk.Proofs.Surveys
import RentalDesk.Proofs.Turns
import RentalDesk.Proofs.Wire.Listings
import RentalDesk.Proofs.Wire.Pairing
import RentalDesk.Script.Run
import RentalDesk.Script.WriteSets
