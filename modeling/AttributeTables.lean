import AttributeTables.Output.Emission
import AttributeTables.World
import AttributeTables.Main
import AttributeTables.Proofs.Lookups
import AttributeTables.Proofs.Output.Alignment
import AttributeTables.Proofs.Output.Selections
import AttributeTables.Proofs.Output.Distinctness
import AttributeTables.Proofs.Output.Encoding
import AttributeTables.Proofs.Output.Inclusions
import AttributeTables.Proofs.Output.Functions
import AttributeTables.Proofs.Output.StringTags
import AttributeTables.Proofs.Layout.Growth
import AttributeTables.Proofs.Interleavings
import AttributeTables.Proofs.World.AllOrNothing
import AttributeTables.Proofs.World.Regeneration
import AttributeTables.Proofs.World.Leftovers
import AttributeTables.Proofs.PropertyTable.Restrictions
import AttributeTables.Proofs.Text.Literals
import AttributeTables.Proofs.Output.Arguments
import AttributeTables.Proofs.Manifest.Entries
import AttributeTables.Proofs.Manifest.FirstFault
import AttributeTables.Proofs.Output.Styles
import AttributeTables.Proofs.Output.Displays
import AttributeTables.Proofs.World.Modes
import AttributeTables.Proofs.World.Precedence
import AttributeTables.Proofs.Depfile
import AttributeTables.Proofs.Output.Emission
import AttributeTables.Proofs.Output.Walk
import AttributeTables.Proofs.Output.Banner
import AttributeTables.Proofs.Registry.Listing
import AttributeTables.Proofs.Manifest.Spellings
