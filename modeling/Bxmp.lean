import Bxmp.Bytes
import Bxmp.Regexp
import Bxmp.Strconv
import Bxmp.Abi.TypeRegex
import Bxmp.Abi.Type
import Bxmp.Abi.NewType
import Bxmp.Abi.Outcome
import Bxmp.Abi.Render
import Bxmp.Abi.Canonical
import Bxmp.Abi.Normalize
import Bxmp.Validator
import Bxmp.Bxm.Lock
import Bxmp.Bxm.Backend
import Bxmp.Geth.Config
