import Kirje.Authority.Codecs
import Kirje.Authority.Folding
import Kirje.Authority.Keeping
import Kirje.Authority.Lockout
import Kirje.Authority.Retiring
import Kirje.Authority.Retries
import Kirje.Authority.Trying
import Kirje.Config.Accounts
import Kirje.Core.Budgets
import Kirje.Core.Hosts
import Kirje.Core.ReplyAll
import Kirje.Core.Updates
import Kirje.Index.Addresses
import Kirje.Index.Coverage
import Kirje.Ledger.Certainty
import Kirje.Ledger.Consent
import Kirje.Ledger.Discards
import Kirje.Ledger.Expiry
import Kirje.Ledger.Listing
import Kirje.Ledger.Migration
import Kirje.Local.Replace
import Kirje.Protocol.Messages
import Kirje.Protocol.Safekeeping
