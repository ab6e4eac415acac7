import Classpath.Main
import Classpath.Session
import Classpath.Proofs.BigEndian
import Classpath.Proofs.Reads
import Classpath.Proofs.Lookup
import Classpath.Proofs.Cursor
import Classpath.Proofs.ClassFile.Layout
import Classpath.Proofs.ClassFile.Pool
import Classpath.Proofs.ClassFile.Header
import Classpath.Proofs.ClassFile.Unambiguous
import Classpath.Proofs.ClassFile.Grammar
import Classpath.Proofs.ClassFile.Carving
import Classpath.Proofs.Registry.WellKept
import Classpath.Proofs.Registry.Growth
import Classpath.Proofs.Registry.Scanning
import Classpath.Proofs.Registry.Reloading
import Classpath.Proofs.Session.Passing
import Classpath.Proofs.Session.Reachable
import Classpath.Proofs.Registry.Transaction
import Classpath.Proofs.Session.Tracing
import Classpath.Proofs.ClassFile.Skipping
import Classpath.Proofs.ClassFile.Numbering
import Classpath.Proofs.ClassFile.CodePlace
import Classpath.Proofs.Session.StalePool
import Classpath.Proofs.Registry.Additions
import Classpath.Proofs.Registry.Contributions
import Classpath.Proofs.Command.ScanOrder
import Classpath.Proofs.Command.Runs
import Classpath.Proofs.Text.ModifiedUtf8
import Classpath.Proofs.ClassFile.CodeExtent
import Classpath.Proofs.Session.Residency
import Classpath.Proofs.Registry.Handles
import Classpath.Proofs.Registry.Closing
import Classpath.Proofs.Session.Handles
import Classpath.Proofs.Session.ReadingBack
import Classpath.Proofs.Session.Generations
import Classpath.Proofs.Registry.Mirroring
import Classpath.Proofs.Session.Beside
import Classpath.Proofs.Session.Independence
import Classpath.Proofs.Files.Paths
import Classpath.Proofs.Files.Leaves
import Classpath.Proofs.Registry.Packing
import Classpath.Proofs.Session.Packing
import Classpath.Proofs.Registry.Members
import Classpath.Proofs.Naming
import Classpath.Proofs.Session.SourceEntries
import Classpath.Proofs.Steady
import Classpath.Proofs.ClassFile.Truncation
import Classpath.Proofs.ClassFile.CutCode
import Classpath.Proofs.Text.Malformed
import Classpath.Proofs.Registry.Reaching
import Classpath.Proofs.Session.Reaching
import Classpath.Proofs.Command.Names
import Classpath.Proofs.Text.ByteOrder
import Classpath.Proofs.Text.Utf8
import Classpath.Proofs.ClassFile.Lookups
import Classpath.Proofs.ClassFile.Measuring
import Classpath.Proofs.Files.Ordering
import Classpath.Proofs.Registry.Walking
import Classpath.Proofs.Command.Listings
