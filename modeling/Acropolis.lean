import Acropolis.Python.Value
import Acropolis.Python.Text
import Acropolis.Cbor.Decode
import Acropolis.Manifest.Sha256
import Acropolis.Manifest.Digest
import Acropolis.Manifest.Filename
import Acropolis.Manifest.Generate
import Acropolis.Governance.ScreenStrings
import Acropolis.Status.Sources
import Acropolis.Status.Report
import Acropolis.Governance.SplitVotes
import Acropolis.Cbor.Encode
import Acropolis.Manifest.Fixtures
import Acropolis.Python.Regex
import Acropolis.Python.Json
import Acropolis.Governance.ExecutionLog
import Acropolis.Governance.Convert
import Acropolis.Governance.CheckConwaySyncdb
import Acropolis.Replayer.RenameGovernance
