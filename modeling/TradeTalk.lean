import TradeTalk.Decimal.Scientific
import TradeTalk.Main
import TradeTalk.SharedLedger
import TradeTalk.Json
import TradeTalk.Proofs.Ledger.History
import TradeTalk.Proofs.Ledger.Outcome
import TradeTalk.Proofs.Numeral.Reading
import TradeTalk.Proofs.Text.Lines
import TradeTalk.Proofs.Text.Folding
import TradeTalk.Proofs.Ledger.Wording
import TradeTalk.Proofs.Transcript.Lines
import TradeTalk.Proofs.Transcript.Frames
import TradeTalk.Proofs.Dialogue.Agreement
import TradeTalk.Proofs.Ledger.LetterCase
import TradeTalk.Proofs.Ledger.Snapshot
import TradeTalk.Proofs.Ledger.Restated
import TradeTalk.Proofs.Ledger.WellFormed
import TradeTalk.Proofs.Ledger.Reordering
import TradeTalk.Proofs.Ledger.Pricing
import TradeTalk.Proofs.Ledger.Comparison
import TradeTalk.Proofs.Ledger.OwnQuote
import TradeTalk.Proofs.SharedLedger.Noninterference
import TradeTalk.Proofs.Decimal.Nearest
import TradeTalk.Proofs.Decimal.Value
import TradeTalk.Proofs.Decimal.Written
import TradeTalk.Proofs.Decimal.Shown
import TradeTalk.Proofs.Decimal.Cap
import TradeTalk.Proofs.Decimal.Kept
import TradeTalk.Proofs.Request.Amounts
import TradeTalk.Proofs.Ledger.Unambiguous
import TradeTalk.Proofs.Request.Exclusive
import TradeTalk.Proofs.Overview.ReadBack
import TradeTalk.Proofs.Overview.Tables
