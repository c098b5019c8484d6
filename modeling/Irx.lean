import Irx.Memory.Reset
import Irx.Memory.Destruction
import Irx.Memory.Probes
import Irx.Memory.Pages
import Irx.Lib.Loop
import Irx.Exec.Resume
import Irx.Exec.Aliases
import Irx.Exec.Dispatch
import Irx.Debug.Paths
import Irx.Debug.Access
import Irx.Debug.Caches
import Irx.Sections.Bounds
import Irx.Sections.Levels
import Irx.Debug.Compare
import Irx.Sections.Priority
import Irx.Python.ReadBack
import Irx.Exec.Restart
import Irx.Python.ObjectMap
import Irx.Python.Upload
import Irx.Python.Unresolved
import Irx.Python.SetStruct
import Irx.Python.Diff
import Irx.Python.Shared
import Irx.Exec.Translated
import Irx.Generator.Order
import Irx.Generator.Classes
import Irx.Generator.Fields
import Irx.Generator.Counts
import Irx.Exec.Lookup
import Irx.Exec.Pointers
import Irx.Exec.Registers
import Irx.Exec.Placement
import Irx.Exec.Narrow
import Irx.Memory.Wrapping
import Irx.Blob.LinkerMap
import Irx.Debug.Stripping
import Irx.Python.Containers
import Irx.Sections.Starts
import Irx.Generator.Identifiers
import Irx.Generator.Termination
import Irx.Python.SelfCheck
import Irx.Blob.MapText
import Irx.Memory.Life
import Irx.Python.Missmatches
import Irx.Exec.GlobalStore
import Irx.Blob.Extract
import Irx.Python.Identity
import Irx.Python.Isolation
import Irx.Python.Interpreted
