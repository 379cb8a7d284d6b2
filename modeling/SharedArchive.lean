import SharedArchive.Main
import SharedArchive.Proofs.AddressRanges
import SharedArchive.Proofs.Buffers
import SharedArchive.Proofs.CheckedSearch
import SharedArchive.Proofs.CursorPrograms
import SharedArchive.Proofs.EventTexts
import SharedArchive.Proofs.HeaderEvents
import SharedArchive.Proofs.ItemOrder
import SharedArchive.Proofs.Loading
import SharedArchive.Proofs.LogLines
import SharedArchive.Proofs.LongerFile
import SharedArchive.Proofs.OptionValues
import SharedArchive.Proofs.Relocation
import SharedArchive.Proofs.ReportedMagic
import SharedArchive.Proofs.SearchEvents
import SharedArchive.Proofs.Sections
import SharedArchive.Proofs.Spans
import SharedArchive.Proofs.SymbolRecords
import SharedArchive.Proofs.TextCuts
import SharedArchive.Proofs.TextSizes
import SharedArchive.Proofs.Translation
