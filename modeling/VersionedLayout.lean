import VersionedLayout.Check.Analysis
import VersionedLayout.Dump
import VersionedLayout.Header.Delivery
import VersionedLayout.Json.Decoding
import VersionedLayout.Json.Reader
import VersionedLayout.Proofs.Acceptance
import VersionedLayout.Proofs.Outline
import VersionedLayout.Proofs.Sections
import VersionedLayout.Proofs.FirstFault
import VersionedLayout.Proofs.Deletion
import VersionedLayout.Proofs.Likeness
import VersionedLayout.Proofs.Reachability
import VersionedLayout.Proofs.DeadBlocks
import VersionedLayout.Proofs.Locality
import VersionedLayout.Proofs.DeclaredRange
import VersionedLayout.Proofs.Includes
import VersionedLayout.Proofs.AcceptedDefaults
import VersionedLayout.Proofs.DumpContents
import VersionedLayout.Proofs.BitFields
import VersionedLayout.Proofs.Construction
import VersionedLayout.Proofs.Redeclarations
import VersionedLayout.Proofs.RepeatedFields
import VersionedLayout.Proofs.UnreachableBlocks
import VersionedLayout.Proofs.AcceptedBlocks
import VersionedLayout.Proofs.FieldReports
import VersionedLayout.Proofs.Initializers
import VersionedLayout.Proofs.ArgumentCounts
import VersionedLayout.Proofs.PartialConfigs
import VersionedLayout.Proofs.Delivery
import VersionedLayout.Proofs.EmissionLog
import VersionedLayout.Proofs.RangeReports
import VersionedLayout.Proofs.NumericDefaults
