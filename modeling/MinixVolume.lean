import MinixVolume.Disk.Faulty
import MinixVolume.Main
import MinixVolume.Proofs.Bystanders
import MinixVolume.Proofs.Preservation
import MinixVolume.Proofs.Resilience
import MinixVolume.Proofs.Undo
import MinixVolume.Proofs.Backing
import MinixVolume.Proofs.Safety
import MinixVolume.Proofs.Reopening
import MinixVolume.Proofs.Inventory
import MinixVolume.Proofs.Dangling
import MinixVolume.Proofs.Pages
import MinixVolume.Proofs.Portions
import MinixVolume.Proofs.Interchange
import MinixVolume.Proofs.DryRun
import MinixVolume.Proofs.Handout
import MinixVolume.Proofs.Agreement
import MinixVolume.Proofs.Residue
import MinixVolume.Proofs.Layout
import MinixVolume.Proofs.FreshVolume
import MinixVolume.Proofs.Obstacles
import MinixVolume.Proofs.RootSize
import MinixVolume.Proofs.Numbers
import MinixVolume.Proofs.Concatenation
import MinixVolume.Proofs.Insertion
import MinixVolume.Proofs.Grammar
import MinixVolume.Proofs.Addresses
import MinixVolume.Proofs.RoundTrip
import MinixVolume.Proofs.EntryBlock
