import Ngircd.Lib.CString

/-!
# Replies and errors

The numeric replies of `messages.h`, as the formats the handlers fill in.  Only
the texts a modelled function sends are listed.
-/

namespace Ngircd

open Lib

def rplWelcomeMsg : Str := "001 %s :Welcome to the Internet Relay Network %s"

def rplYourhostMsg : Str := "002 %s :Your host is %s, running version ngircd-%s (%s/%s/%s)"

def rplCreatedMsg : Str := "003 %s :This server has been started %s"

def rplMyinfoMsg : Str := "004 %s %s ngircd-%s %s %s"

def rplIsupportnetMsg : Str := "005 %s NETWORK=%s :is my network name"

def rplIsupport1Msg : Str :=
  "005 %s RFC2812 IRCD=ngIRCd CHARSET=UTF-8 CASEMAPPING=ascii PREFIX=(qaohv)~&@%%+ ".toList ++
    "CHANTYPES=%s CHANMODES=beI,k,l,imMnOPQRstVz CHANLIMIT=%s:%d :are supported on this server"

def rplIsupport2Msg : Str :=
  "005 %s CHANNELLEN=%d NICKLEN=%d TOPICLEN=%d AWAYLEN=%d KICKLEN=%d MODES=%d ".toList ++
    "MAXLIST=beI:%d EXCEPTS=e INVEX=I PENALTY FNC :are supported on this server"

def rplTracelinkMsg : Str := "200 %s Link %s-%s %s %s V%s %ld %d %d"

def rplTraceoperatorMsg : Str := "204 %s Oper 2 :%s"

def rplTraceserverMsg : Str := "206 %s Serv 1 0S 0C %s[%s@%s] *!*@%s :V%s"

def rplStatslinkinfoMsg : Str := "211 %s %s %d %ld %ld %ld %ld :%ld"

def rplStatscommandsMsg : Str := "212 %s %s %ld %ld %ld"

def rplStatsxlineMsg : Str := "216 %s %c %s %ld :%s"

def rplEndofstatsMsg : Str := "219 %s %c :End of STATS report"

def rplUmodeisMsg : Str := "221 %s +%s"

def rplServlistMsg : Str := "234 %s %s %s %s %d %d :%s"

def rplServlistendMsg : Str := "235 %s %s %s :End of service listing"

def rplStatsuptime : Str := "242 %s :Server Up %u days %u:%02u:%02u"

def rplLuserclientMsg : Str := "251 %s :There are %ld users and %ld services on %ld servers"

def rplLuseropMsg : Str := "252 %s %lu :operator(s) online"

def rplLuserunknownMsg : Str := "253 %s %lu :unknown connection(s)"

def rplLuserchannelsMsg : Str := "254 %s %lu :channels formed"

def rplLusermeMsg : Str := "255 %s :I have %lu users, %lu services and %lu servers"

def rplAdminmeMsg : Str := "256 %s %s :Administrative info"

def rplAdminloc1Msg : Str := "257 %s :%s"

def rplAdminloc2Msg : Str := "258 %s :%s"

def rplAdminemailMsg : Str := "259 %s :%s"

def rplTraceendMsg : Str := "262 %s %s %s-%s.%s :End of TRACE"

def rplLocalusersMsg : Str := "265 %s %lu %lu :Current local users: %lu, Max: %lu"

def rplNetusersMsg : Str := "266 %s %lu %lu :Current global users: %lu, Max: %lu"

def rplStatsconnMsg : Str := "250 %s :Highest connection count: %lu (%lu connections received)"

def rplAwayMsg : Str := "301 %s %s :%s"

def rplUserhostMsg : Str := "302 %s :"

def rplIsonMsg : Str := "303 %s :"

def rplUnawayMsg : Str := "305 %s :You are no longer marked as being away"

def rplNowawayMsg : Str := "306 %s :You have been marked as being away"

def rplWhoisregnickMsg : Str := "307 %s %s :is a registered nick"

def rplWhoisserviceMsg : Str := "310 %s %s :is an IRC service"

def rplWhoisuserMsg : Str := "311 %s %s %s %s * :%s"

def rplWhoisserverMsg : Str := "312 %s %s %s :%s"

def rplWhoisoperatorMsg : Str := "313 %s %s :is an IRC operator"

def rplWhowasuserMsg : Str := "314 %s %s %s %s * :%s"

def rplEndofwhoMsg : Str := "315 %s %s :End of WHO list"

def rplWhoisidleMsg : Str := "317 %s %s %lu %lu :seconds idle, signon time"

def rplEndofwhoisMsg : Str := "318 %s %s :End of WHOIS list"

def rplWhoischannelsMsg : Str := "319 %s %s :"

def rplListstartMsg : Str := "321 %s Channel :Users  Name"

def rplListMsg : Str := "322 %s %s %ld :%s"

def rplListendMsg : Str := "323 %s :End of LIST"

def rplChannelmodeisMsg : Str := "324 %s %s +%s"

def rplCreationtimeMsg : Str := "329 %s %s %ld"

def rplWhoisloggedinMsg : Str := "330 %s %s %s :is logged in as"

def rplNotopicMsg : Str := "331 %s %s :No topic is set"

def rplTopicMsg : Str := "332 %s %s :%s"

def rplTopicsetbyMsg : Str := "333 %s %s %s %u"

def rplWhoisbotMsg : Str := "335 %s %s :is an IRC Bot"

def rplInvitingMsg : Str := "341 %s %s %s%s"

def rplInvitelistMsg : Str := "346 %s %s %s %s %d"

def rplEndofinvitelistMsg : Str := "347 %s %s :End of channel invite list"

def rplExceptlistMsg : Str := "348 %s %s %s %s %d"

def rplEndofexceptlistMsg : Str := "349 %s %s :End of channel exception list"

def rplVersionMsg : Str := "351 %s %s-%s.%s %s :%s"

def rplWhoreplyMsg : Str := "352 %s %s %s %s %s %s %s :%d %s"

def rplNamreplyMsg : Str := "353 %s %c %s :"

def rplLinksMsg : Str := "364 %s %s %s :%d %s"

def rplEndoflinksMsg : Str := "365 %s %s :End of LINKS list"

def rplEndofnamesMsg : Str := "366 %s %s :End of NAMES list"

def rplBanlistMsg : Str := "367 %s %s %s %s %d"

def rplEndofbanlistMsg : Str := "368 %s %s :End of channel ban list"

def rplEndofwhowasMsg : Str := "369 %s %s :End of WHOWAS list"

def rplInfoMsg : Str := "371 %s :%s"

def rplEndofinfoMsg : Str := "374 %s :End of INFO list"

def rplMotdMsg : Str := "372 %s :- %s"

def rplMotdstartMsg : Str := "375 %s :- %s message of the day"

def rplEndofmotdMsg : Str := "376 %s :End of MOTD command"

def rplWhoishostMsg : Str := "378 %s %s :is connecting from *@%s %s"

def rplWhoismodesMsg : Str := "379 %s %s :is using modes +%s"

def rplYoureoperMsg : Str := "381 %s :You are now an IRC Operator"

def rplRehashingMsg : Str := "382 %s :Rehashing"

def rplTimeMsg : Str := "391 %s %s :%s"

def rplHosthiddenMsg : Str := "396 %s %s :is your displayed hostname now"

def errNosuchnickMsg : Str := "401 %s %s :No such nick or channel name"

def errNosuchserverMsg : Str := "402 %s %s :No such server"

def errNosuchchannelMsg : Str := "403 %s %s :No such channel"

def errCannotsendtochanMsg : Str := "404 %s %s :Cannot send to channel"

def errToomanychannelsMsg : Str := "405 %s %s :You have joined too many channels"

def errWasnosuchnickMsg : Str := "406 %s %s :There was no such nickname"

def errToomanytargetsMsg : Str := "407 %s :Too many recipients"

def errNooriginMsg : Str := "409 %s :No origin specified"

def errInvalidcapMsg : Str := "410 %s %s :Invalid CAP subcommand"

def errNorecipientMsg : Str := "411 %s :No recipient given (%s)"

def errNotexttosendMsg : Str := "412 %s :No text to send"

def errWildtoplevelMsg : Str := "414 %s :Wildcard in toplevel domain"

def errUnknowncommandMsg : Str := "421 %s %s :Unknown command"

def errNomotdMsg : Str := "422 %s :MOTD file is missing"

def errNonicknamegivenMsg : Str := "431 %s :No nickname given"

def errErroneusnicknameMsg : Str := "432 %s %s :Erroneous nickname"

def errNicknametoolongMsg : Str := "432 %s %s :Nickname too long, max. %u characters"

def errForbiddennicknameMsg : Str := "432 %s %s :Nickname is forbidden/blocked"

def errNicknameinuseMsg : Str := "433 %s %s :Nickname already in use"

def errUsernotinchannelMsg : Str := "441 %s %s %s :They aren't on that channel"

def errNotonchannelMsg : Str := "442 %s %s :You are not on that channel"

def errUseronchannelMsg : Str := "443 %s %s %s :is already on channel"

def errSummondisabledMsg : Str := "445 %s :SUMMON has been disabled"

def errUsersdisabledMsg : Str := "446 %s :USERS has been disabled"

def errNonickchangeMsg : Str := "447 %s :Cannot change nickname while on %s(+N)"

def errNotregisteredMsg : Str := "451 %s :Connection not registered"

def errNotregisteredserverMsg : Str := "451 %s :Connection not registered as server link"

def errNeedmoreparamsMsg : Str := "461 %s %s :Syntax error"

def errAlreadyregistredMsg : Str := "462 %s :Connection already registered"

def errPasswdmismatchMsg : Str := "464 %s :Invalid password"

def errChannelisfullMsg : Str :=
  "471 %s %s :Cannot join channel (+l) -- Channel is full, try later"

def errSecurechannelMsg : Str := "471 %s %s :Cannot join channel (+z) -- SSL connections only"

def errOponlychannelMsg : Str := "471 %s %s :Cannot join channel (+O) -- IRC opers only"

def errRegonlychannelMsg : Str := "471 %s %s :Cannot join channel (+R) -- Registered users only"

def errUnknownmodeMsg : Str := "472 %s %c :is unknown mode char for %s"

def errInviteonlychanMsg : Str := "473 %s %s :Cannot join channel (+i) -- Invited users only"

def errBannedfromchanMsg : Str := "474 %s %s :Cannot join channel (+b) -- You are banned"

def errBadchannelkeyMsg : Str := "475 %s %s :Cannot join channel (+k) -- Wrong channel key"

def errNochanmodesMsg : Str := "477 %s %s :Channel doesn't support modes"

def errNeedreggednickMsg : Str :=
  "477 %s %s :Cannot send to channel (+M) -- You need to be ".toList ++
    "identified to a registered account to message this channel"

def errListfullMsg : Str := "478 %s %s %s :Channel list is full (%d)"

def errNoprivilegesMsg : Str := "481 %s :Permission denied"

def errChanoprivsneededMsg : Str := "482 %s %s :You are not channel operator"

def errChanopprivtoolowMsg : Str := "482 %s %s :Your privileges are too low"

def errKickdenyMsg : Str := "482 %s %s :Cannot kick, %s is protected"

def errCantkillserverMsg : Str := "483 %s :You can't kill a server!"

def errRestrictedMsg : Str := "484 %s :Your connection is restricted"

def errNickregisterMsg : Str := "484 %s :Cannot modify user mode (+R) -- Use IRC services"

def errNononregMsg : Str :=
  "486 %s :Cannot send to user (+b) -- You must identify to a registered nick to private message %s"

def errNotonsamechannelMsg : Str := "493 %s :You must share a common channel with %s"

def errUmodeunknownflagMsg : Str := "501 %s :Unknown mode"

def errUmodeunknownflag2Msg : Str := "501 %s :Unknown mode \"%c%c\""

def errUsersdontmatchMsg : Str := "502 %s :Can't set/get mode for other users"

def errUsernotonservMsg : Str := "504 %s %s :User is not on this server"

def errNoinviteMsg : Str := "518 %s :Cannot invite to %s (+V)"

def errInvalidmodeparamMsg : Str := "696 %s %s %c * :Invalid mode parameter"

end Ngircd
